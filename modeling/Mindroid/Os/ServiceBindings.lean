import Mindroid.Foundation.Transition
import Mindroid.Os.ServiceSteps

/-!
# Unbinding

`unbindService` does not ask whether the connection is bound.  It counts the connections that are
left, and when there are none it has the manager stop the service.
-/

set_option autoImplicit false

namespace Mindroid

namespace ServiceManager

variable (manager : ServiceManager)

/-- The connection is bound to the service of the component. -/
def Bound (component : ComponentName) (conn : Nat) : Prop :=
  ∃ record, manager.mServices component = some record ∧
    conn ∈ (manager.serviceRecords record).serviceConnections

/-- After `unbindService` and the stop request that it may have posted. -/
def afterUnbind (intent : Intent) (conn : Nat) : ServiceManager :=
  let called := manager.unbindService intent conn
  if called.posted.length = manager.posted.length then
    called
  else
    ({ called with posted := manager.posted }.stopService intent).2

/-- Unbinding a connection that is not bound changes nothing. -/
def LeavesAlone (action : ServiceAction) (_ : ServiceManager) : Prop :=
  ∀ intent conn, action = .unbindService intent conn → ¬manager.Bound intent.component conn →
    manager.afterUnbind intent conn = manager

/-- A service from which an unbound connection is unbound has another one. -/
def OtherwiseBound (action : ServiceAction) : Prop :=
  ∀ intent conn record, action = .unbindService intent conn →
    ¬manager.Bound intent.component conn → manager.mServices intent.component = some record →
      (manager.serviceRecords record).serviceConnections ≠ []

/-! ## Services in the table are alive -/

/-- The records in the table are alive, and no two components have one record. -/
structure Alive : Prop where
  made : ∀ component record, manager.mServices component = some record →
    record < manager.serviceRecordsMade
  apart : ∀ component other record, manager.mServices component = some record →
    manager.mServices other = some record → component = other
  alive : ∀ component record, manager.mServices component = some record →
    (manager.serviceRecords record).alive = true

variable {manager}

theorem initial_alive : initial.Alive where
  made := fun _ _ served => absurd served (Option.some_ne_none _).symm
  apart := fun _ _ _ served => absurd served (Option.some_ne_none _).symm
  alive := fun _ _ served => absurd served (Option.some_ne_none _).symm

/-- Services may go; those that stay are as alive as before. -/
structure Spared (manager next : ServiceManager) : Prop where
  made : next.serviceRecordsMade = manager.serviceRecordsMade
  served : ∀ component record, next.mServices component = some record →
    manager.mServices component = some record
  alive : ∀ component record, next.mServices component = some record →
    (next.serviceRecords record).alive = (manager.serviceRecords record).alive

theorem Alive.of_spared {next : ServiceManager} (alive : manager.Alive)
    (spared : Spared manager next) : next.Alive where
  made := by
    intro component record served
    rw [spared.made]
    exact alive.made component record (spared.served component record served)
  apart := fun component other record served otherServed =>
    alive.apart component other record (spared.served component record served)
      (spared.served other record otherServed)
  alive := by
    intro component record served
    rw [spared.alive component record served]
    exact alive.alive component record (spared.served component record served)

theorem Touches.spared {next : ServiceManager} (touches : Touches manager next) :
    Spared manager next where
  made := touches.serviceRecordsMade
  served := by
    intro component record served
    rw [← touches.services]
    exact served
  alive := fun _ record _ => touches.alive record

theorem prepareProcess_spared (name : List UInt8) :
    Spared manager (manager.prepareProcess name).2 := by
  rw [prepareProcess]
  split
  · exact ⟨rfl, fun _ _ served => served, fun _ _ _ => rfl⟩
  · exact ⟨rfl, fun _ _ served => served, fun _ _ _ => rfl⟩

theorem createService_alive (alive : manager.Alive) {component : ComponentName} {record : Nat}
    (served : manager.mServices component = some record) :
    (manager.createService component record).Alive := by
  rw [createService, if_pos (alive.alive component record served)]
  exact alive

/-- One more record is made for a component, and it is alive. -/
theorem Alive.of_added {next : ServiceManager} {component : ComponentName} (alive : manager.Alive)
    (made : next.serviceRecordsMade = manager.serviceRecordsMade + 1)
    (services : next.mServices =
      Function.update manager.mServices component (some manager.serviceRecordsMade))
    (new : (next.serviceRecords manager.serviceRecordsMade).alive = true)
    (others : ∀ record, record < manager.serviceRecordsMade →
      (next.serviceRecords record).alive = (manager.serviceRecords record).alive) :
    next.Alive := by
  have added : ∀ other record, next.mServices other = some record →
      (other = component ∧ record = manager.serviceRecordsMade) ∨
        (manager.mServices other = some record ∧ record < manager.serviceRecordsMade) := by
    intro other record served
    rw [services] at served
    by_cases same : other = component
    · rw [same, Function.update_self] at served
      exact .inl ⟨same, (Option.some.inj served).symm⟩
    · rw [Function.update_of_ne same] at served
      exact .inr ⟨served, alive.made other record served⟩
  constructor
  case made =>
    intro other record served
    rw [made]
    rcases added other record served with ⟨_, rfl⟩ | ⟨_, known⟩
    · exact Nat.lt_succ_self _
    · exact Nat.lt_succ_of_lt known
  case apart =>
    intro first second record served otherServed
    rcases added first record served with ⟨isFirst, isNew⟩ | ⟨firstServed, known⟩
    · rcases added second record otherServed with ⟨isSecond, _⟩ | ⟨_, known⟩
      · exact isFirst.trans isSecond.symm
      · exact absurd (isNew ▸ known) (Nat.lt_irrefl _)
    · rcases added second record otherServed with ⟨_, isNew⟩ | ⟨secondServed, _⟩
      · exact absurd (isNew ▸ known) (Nat.lt_irrefl _)
      · exact alive.apart first second record firstServed secondServed
  case alive =>
    intro other record served
    rcases added other record served with ⟨_, rfl⟩ | ⟨before, known⟩
    · exact new
    · rw [others record known]
      exact alive.alive other record before

/-- The new record is made alive at once. -/
theorem newService_alive (alive : manager.Alive) (intent : Intent) (info : ServiceInfo) :
    ((manager.newService intent info).createService intent.component
      manager.serviceRecordsMade).Alive := by
  have before := alive.of_spared (prepareProcess_spared info.processName)
  have sameMade : (manager.prepareProcess info.processName).2.serviceRecordsMade =
      manager.serviceRecordsMade := (prepareProcess_spared info.processName).made
  rw [newService]
  generalize manager.prepareProcess info.processName = prepared at before sameMade
  cases prepared with
  | mk processRecord prepared =>
      rw [← sameMade]
      have isNew : ∀ (records : Nat → ServiceRecord) (service : ServiceRecord),
          Function.update records prepared.serviceRecordsMade service
            prepared.serviceRecordsMade = service := fun _ _ => Function.update_self _ _ _
      rw [createService]
      simp only [isNew, Bool.false_eq_true, if_false]
      refine before.of_added rfl rfl ?_ fun record known => ?_
      · exact congrArg ServiceRecord.alive (isNew _ _)
      · have kept : ∀ (records : Nat → ServiceRecord) (service : ServiceRecord),
            Function.update records prepared.serviceRecordsMade service record = records record :=
          fun _ _ => Function.update_of_ne (Nat.ne_of_lt known) _ _
        exact congrArg ServiceRecord.alive ((kept _ _).trans (kept _ _))

theorem prepareService_alive (alive : manager.Alive) (intent : Intent)
    (resolved : Option ServiceInfo) : (manager.prepareService intent resolved).2.Alive := by
  rw [prepareService]
  split
  case h_1 => exact alive
  case h_2 info _ =>
    split
    case h_1 record served => exact createService_alive alive served
    case h_2 => exact newService_alive alive intent info

/-- The record of the service that goes belongs to no other component. -/
theorem dropService_alive (alive : manager.Alive) {component : ComponentName} {record : Nat}
    (served : manager.mServices component = some record) :
    (manager.dropService component record).Alive := by
  have unlisted : Spared manager (manager.unlistService component record) := by
    have stays : ∀ other otherRecord,
        (manager.unlistService component record).mServices other = some otherRecord →
          other ≠ component ∧ manager.mServices other = some otherRecord := by
      intro other otherRecord otherServed
      by_cases same : other = component
      · rw [same] at otherServed
        have gone : (manager.unlistService component record).mServices component = none :=
          Function.update_self _ _ _
        rw [gone] at otherServed
        cases otherServed
      · exact ⟨same, (Function.update_of_ne same _ _).symm.trans otherServed⟩
    refine ⟨rfl, fun other otherRecord otherServed => (stays other otherRecord otherServed).2, ?_⟩
    intro other otherRecord otherServed
    rcases stays other otherRecord otherServed with ⟨apart, before⟩
    have otherApart : otherRecord ≠ record := by
      rintro rfl
      exact apart (alive.apart other component otherRecord before served)
    exact congrArg ServiceRecord.alive (Function.update_of_ne otherApart _ _)
  have dropped := alive.of_spared unlisted
  rw [dropService]
  split
  · exact dropped.of_spared ⟨rfl, fun _ _ served => served, fun _ _ _ => rfl⟩
  · exact dropped

theorem stable_alive : Stable Alive where
  prepared := fun intent resolved alive => prepareService_alive alive intent resolved
  dropped := fun alive served => dropService_alive alive served
  touched := fun alive touches => alive.of_spared touches.spared

theorem step_alive {next : ServiceManager} {action : ServiceAction} (alive : manager.Alive)
    (taken : manager.step action = some next) : next.Alive :=
  stable_alive.step alive taken

/-! ## Unbound connections -/

section Unbound

variable {intent : Intent} {conn record : Nat}

/-- The call itself leaves everything but the requests as it was. -/
theorem unbindService_unbound (unbound : ¬manager.Bound intent.component conn)
    (served : manager.mServices intent.component = some record) :
    manager.unbindService intent conn =
      if (manager.serviceRecords record).serviceConnections.length = 0 then
        { manager with posted := manager.posted ++ [intent] }
      else
        manager := by
  have absent : conn ∉ (manager.serviceRecords record).serviceConnections :=
    fun member => unbound ⟨record, served, member⟩
  have same : Function.update manager.serviceRecords record
      { manager.serviceRecords record with
        serviceConnections := (manager.serviceRecords record).serviceConnections.erase conn } =
      manager.serviceRecords := by
    rw [List.erase_of_not_mem absent]
    exact Function.update_eq_self record manager.serviceRecords
  rw [unbindService, served]
  simp only
  rw [same, List.erase_of_not_mem absent]

theorem afterUnbind_unserved (unserved : manager.mServices intent.component = none) :
    manager.afterUnbind intent conn = manager := by
  have called : manager.unbindService intent conn = manager := by
    rw [unbindService, unserved]
  rw [afterUnbind, called]
  exact if_pos rfl

/-- A service with other connections is left alone. -/
theorem afterUnbind_otherwise (unbound : ¬manager.Bound intent.component conn)
    (served : manager.mServices intent.component = some record)
    (others : (manager.serviceRecords record).serviceConnections ≠ []) :
    manager.afterUnbind intent conn = manager := by
  have isSome : ¬(manager.serviceRecords record).serviceConnections.length = 0 :=
    fun isZero => others (List.length_eq_zero_iff.mp isZero)
  have called := unbindService_unbound unbound served
  rw [if_neg isSome] at called
  rw [afterUnbind, called]
  exact if_pos rfl

/-- A service without connections is stopped. -/
theorem afterUnbind_stops (alive : manager.Alive) (unbound : ¬manager.Bound intent.component conn)
    (served : manager.mServices intent.component = some record)
    (noOthers : (manager.serviceRecords record).serviceConnections = []) :
    (manager.afterUnbind intent conn).mServices intent.component = none := by
  have isZero : (manager.serviceRecords record).serviceConnections.length = 0 :=
    congrArg List.length noOthers
  have called := unbindService_unbound unbound served
  rw [if_pos isZero] at called
  have isLonger : ¬(manager.posted ++ [intent]).length = manager.posted.length := by
    rw [List.length_append]
    exact Nat.succ_ne_self _
  rw [afterUnbind, called]
  simp only
  rw [if_neg isLonger, stopService, served]
  simp only
  have isAlive : ¬(manager.serviceRecords record).alive = false := by
    rw [alive.alive _ record served]
    exact Bool.noConfusion
  rw [if_neg isAlive, if_neg (not_not_intro isZero), dropService]
  split
  · exact Function.update_self _ _ _
  · exact Function.update_self _ _ _

theorem leavesAlone_iff (alive : manager.Alive) (action : ServiceAction) (next : ServiceManager) :
    manager.LeavesAlone action next ↔ manager.OtherwiseBound action := by
  constructor
  · intro leaves intent conn record isUnbind unbound served noOthers
    have same := leaves intent conn isUnbind unbound
    have gone := afterUnbind_stops alive unbound served noOthers
    rw [same, served] at gone
    cases gone
  · intro others intent conn isUnbind unbound
    cases served : manager.mServices intent.component with
    | none => exact afterUnbind_unserved served
    | some record =>
        exact afterUnbind_otherwise unbound served
          (others intent conn record isUnbind unbound served)

end Unbound

/-- In every run, unbinding an unbound connection changes nothing if and only if the service has
no record or another connection each time. -/
theorem unbinds_leave_alone_iff (actions : List ServiceAction) :
    Foundation.Relates step LeavesAlone initial actions ↔
      Foundation.Meets step OtherwiseBound initial actions :=
  Foundation.relates_iff_meets (fun _ _ _ alive taken => step_alive alive taken)
    (fun _ action next alive _ => leavesAlone_iff alive action next) initial_alive actions

/-- A service is started, and then a connection is unbound that was never bound to it. -/
theorem unknown_connection_stops :
    ¬Foundation.Relates step LeavesAlone initial
      [.startService ⟨⟨[112], [97]⟩, false, none, none⟩ (some ⟨[97], [112], [112]⟩),
        .unbindService ⟨⟨[112], [97]⟩, false, none, none⟩ 7] := by
  intro relates
  have started : ∃ manager, step initial (.startService ⟨⟨[112], [97]⟩, false, none, none⟩
      (some ⟨[97], [112], [112]⟩)) = some manager ∧ manager.mServices ⟨[112], [97]⟩ = some 0 ∧
        (manager.serviceRecords 0).serviceConnections = [] := ⟨_, rfl, rfl, rfl⟩
  rcases started with ⟨manager, taken, served, noConnections⟩
  have unbound : ¬manager.Bound ⟨[112], [97]⟩ 7 := by
    rintro ⟨record, isRecord, member⟩
    rw [served] at isRecord
    cases isRecord
    rw [noConnections] at member
    exact List.not_mem_nil member
  have leaves := ((relates manager taken).2 _ rfl).1 _ 7 rfl unbound
  have stopped : (manager.afterUnbind ⟨⟨[112], [97]⟩, false, none, none⟩ 7).mServices
      ⟨[112], [97]⟩ = none :=
    afterUnbind_stops (step_alive initial_alive taken) unbound served noConnections
  rw [leaves, served] at stopped
  cases stopped

end ServiceManager

end Mindroid
