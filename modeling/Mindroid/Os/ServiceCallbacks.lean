import Mindroid.Foundation.Transition
import Mindroid.Os.ServiceProcesses

/-!
# Late callbacks

The callback of `createService` finds its service by component name.  When it reports a failure
after the service was stopped and started again, it cleans up the new record.
-/

set_option autoImplicit false

namespace Mindroid

namespace ServiceManager

variable (manager : ServiceManager)

/-- A failure of one record does not remove, mark dead or stop the process of a later record of
the same component. -/
def Spares (action : ServiceAction) (next : ServiceManager) : Prop :=
  ∀ component record later, action = .onResult (.created component record) false →
    record < later → manager.mServices component = some later →
      next.mServices component = some later ∧
        (next.serviceRecords later).alive = (manager.serviceRecords later).alive ∧
        (manager.Running (manager.processOf (manager.processRecordOf later)) →
          next.Running (manager.processOf (manager.processRecordOf later)))

/-- No other record of the component is in the table when the failure of one is reported. -/
def Current (action : ServiceAction) : Prop :=
  ∀ component record other, action = .onResult (.created component record) false →
    manager.mServices component = some other → other = record

/-- The callbacks in the list are of the current record of a component or of an earlier one. -/
structure Ordered : Prop where
  served : ∀ component record, manager.mServices component = some record →
    record < manager.serviceRecordsMade
  created : ∀ component record, .created component record ∈ manager.mServiceCallbacks →
    record < manager.serviceRecordsMade
  later : ∀ component record other, .created component record ∈ manager.mServiceCallbacks →
    manager.mServices component = some other → record ≤ other

variable {manager}

theorem initial_ordered : initial.Ordered where
  served := fun _ _ served => absurd served (Option.some_ne_none _).symm
  created := fun _ _ created => absurd created List.not_mem_nil
  later := fun _ _ _ created => absurd created List.not_mem_nil

/-- Services may go, and callbacks of created services too. -/
structure Fewer (manager next : ServiceManager) : Prop where
  made : next.serviceRecordsMade = manager.serviceRecordsMade
  served : ∀ component record, next.mServices component = some record →
    manager.mServices component = some record
  created : ∀ component record, .created component record ∈ next.mServiceCallbacks →
    .created component record ∈ manager.mServiceCallbacks

theorem Fewer.refl (manager : ServiceManager) : Fewer manager manager :=
  ⟨rfl, fun _ _ served => served, fun _ _ created => created⟩

theorem Fewer.trans {middle next : ServiceManager} (first : Fewer manager middle)
    (second : Fewer middle next) : Fewer manager next where
  made := second.made.trans first.made
  served := fun component record served =>
    first.served component record (second.served component record served)
  created := fun component record created =>
    first.created component record (second.created component record created)

theorem Ordered.of_fewer {next : ServiceManager} (ordered : manager.Ordered)
    (fewer : Fewer manager next) : next.Ordered where
  served := by
    intro component record served
    rw [fewer.made]
    exact ordered.served component record (fewer.served component record served)
  created := by
    intro component record created
    rw [fewer.made]
    exact ordered.created component record (fewer.created component record created)
  later := by
    intro component record other created served
    exact ordered.later component record other (fewer.created component record created)
      (fewer.served component other served)

/-! ## Requests -/

theorem createService_ordered (ordered : manager.Ordered) {component : ComponentName}
    {record : Nat} (served : manager.mServices component = some record) :
    (manager.createService component record).Ordered := by
  rw [createService]
  split
  case isTrue => exact ordered
  case isFalse =>
    have isNew : ∀ other otherRecord, ServiceCallback.created other otherRecord ∈
        manager.mServiceCallbacks ++ [.created component record] →
        .created other otherRecord ∈ manager.mServiceCallbacks ∨
          other = component ∧ otherRecord = record := by
      intro other otherRecord created
      rw [List.mem_append, List.mem_singleton, ServiceCallback.created.injEq] at created
      exact created
    constructor
    · exact ordered.served
    · intro other otherRecord created
      cases isNew other otherRecord created with
      | inl before => exact ordered.created other otherRecord before
      | inr same =>
          rw [same.2]
          exact ordered.served component record served
    · intro other otherRecord current created isCurrent
      cases isNew other otherRecord created with
      | inl before => exact ordered.later other otherRecord current before isCurrent
      | inr same =>
          have isCurrent : manager.mServices other = some current := isCurrent
          rw [same.1, served] at isCurrent
          rw [same.2, Option.some.inj isCurrent]

theorem prepareProcess_fewer (name : List UInt8) :
    Fewer manager (manager.prepareProcess name).2 := by
  rw [prepareProcess]
  split
  · exact .refl manager
  · exact ⟨rfl, fun _ _ served => served, fun _ _ created => created⟩

/-- A new record is later than all records with callbacks. -/
theorem newService_ordered (ordered : manager.Ordered) (intent : Intent) (info : ServiceInfo) :
    (manager.newService intent info).Ordered ∧
      (manager.newService intent info).mServices intent.component =
        some manager.serviceRecordsMade := by
  have fewer : Fewer manager (manager.prepareProcess info.processName).2 :=
    prepareProcess_fewer info.processName
  rw [newService]
  generalize manager.prepareProcess info.processName = prepared at fewer
  cases prepared with
  | mk processRecord prepared =>
      have before := ordered.of_fewer fewer
      have served : ∀ {component record},
          Function.update prepared.mServices intent.component (some prepared.serviceRecordsMade)
            component = some record →
          record = prepared.serviceRecordsMade ∨ prepared.mServices component = some record := by
        intro component record served
        by_cases same : component = intent.component
        · rw [same, Function.update_self] at served
          exact .inl (Option.some.inj served).symm
        · rw [Function.update_of_ne same] at served
          exact .inr served
      constructor
      · constructor
        · intro component record isServed
          cases served isServed with
          | inl isNew =>
              rw [isNew]
              exact Nat.lt_succ_self _
          | inr known => exact Nat.lt_succ_of_lt (before.served component record known)
        · intro component record created
          exact Nat.lt_succ_of_lt (before.created component record created)
        · intro component record other created isServed
          cases served isServed with
          | inl isNew =>
              rw [isNew]
              exact Nat.le_of_lt (before.created component record created)
          | inr known => exact before.later component record other created known
      · rw [← fewer.made]
        exact Function.update_self _ _ _

theorem prepareService_ordered (ordered : manager.Ordered) (intent : Intent)
    (resolved : Option ServiceInfo) : (manager.prepareService intent resolved).2.Ordered := by
  rw [prepareService]
  split
  case h_1 => exact ordered
  case h_2 info _ =>
    split
    case h_1 record served => exact createService_ordered ordered served
    case h_2 =>
      have added := newService_ordered ordered intent info
      exact createService_ordered added.1 added.2

theorem dropService_fewer (component : ComponentName) (record : Nat) :
    Fewer manager (manager.dropService component record) ∧
      (manager.dropService component record).mServices component = none := by
  have unlisted : Fewer manager (manager.unlistService component record) := by
    refine ⟨rfl, fun other otherRecord served => ?_, fun _ _ created => created⟩
    by_cases same : other = component
    · rw [same] at served
      exact absurd (served.symm.trans (Function.update_self _ _ _)) (Option.some_ne_none _)
    · exact (Function.update_of_ne same _ _).symm.trans served
  have gone : (manager.unlistService component record).mServices component = none :=
    Function.update_self _ _ _
  rw [dropService]
  split
  · exact ⟨unlisted.trans ⟨rfl, fun _ _ served => served, fun _ _ created => created⟩, gone⟩
  · exact ⟨unlisted, gone⟩

theorem cleanupService_served (component : ComponentName) :
    (manager.cleanupService component).2.mServices component = none := by
  rw [cleanupService]
  split
  case h_1 absent => exact absent
  case h_2 record served => exact (dropService_fewer component record).2

theorem Touches.fewer {next : ServiceManager} (touches : Touches manager next) :
    Fewer manager next where
  made := touches.serviceRecordsMade
  served := by
    intro component record served
    rw [← touches.services]
    exact served
  created := touches.created

theorem stable_ordered : Stable Ordered where
  prepared := fun intent resolved ordered => prepareService_ordered ordered intent resolved
  dropped := fun ordered _ => ordered.of_fewer (dropService_fewer _ _).1
  touched := fun ordered touches => ordered.of_fewer touches.fewer

theorem step_ordered {next : ServiceManager} {action : ServiceAction} (ordered : manager.Ordered)
    (taken : manager.step action = some next) : next.Ordered :=
  stable_ordered.step ordered taken

/-! ## Late failures -/

theorem onResult_served (component : ComponentName) (record : Nat) :
    (manager.onResult (.created component record) false).mServices component = none :=
  cleanupService_served component

/-- A reported failure cleans up whatever record the component has. -/
theorem spares_iff_current {next : ServiceManager} {action : ServiceAction}
    (ordered : manager.Ordered) (taken : manager.step action = some next) :
    manager.Spares action next ↔ manager.Current action := by
  constructor
  · intro spares component record other reports served
    rw [reports, step] at taken
    split at taken
    case isFalse => cases taken
    case isTrue created =>
      cases taken
      rcases Nat.eq_or_lt_of_le (ordered.later component record other created served) with
        same | later
      · exact same.symm
      · have kept := (spares component record other reports later served).1
        rw [onResult_served] at kept
        cases kept
  · intro current component record later reports isLater served
    rw [current component record later reports served] at isLater
    exact absurd isLater (Nat.lt_irrefl record)

/-- In every run, reported failures spare later records if and only if the table never has another
record of the component. -/
theorem failures_spare_iff_current (actions : List ServiceAction) :
    Foundation.Relates step Spares initial actions ↔
      Foundation.Meets step Current initial actions := by
  have keeps : ∀ (manager : ServiceManager) action next, manager.Ordered →
      manager.step action = some next → next.Ordered :=
    fun _ _ _ ordered taken => step_ordered ordered taken
  have exact : ∀ (manager : ServiceManager) action next, manager.Ordered →
      manager.step action = some next → (manager.Spares action next ↔ manager.Current action) :=
    fun _ _ _ ordered taken => spares_iff_current ordered taken
  exact Foundation.relates_iff_meets keeps exact initial_ordered actions

/-- A service is started, stopped and started again, and then its first creation fails. -/
theorem late_failure_of_first :
    ¬Foundation.Relates step Spares initial
      [.startService ⟨⟨[112], [97]⟩, false, none, none⟩ (some ⟨[97], [112], [112]⟩),
        .stopService ⟨⟨[112], [97]⟩, false, none, none⟩,
        .startService ⟨⟨[112], [97]⟩, false, none, none⟩ (some ⟨[97], [112], [112]⟩),
        .onResult (.created ⟨[112], [97]⟩ 0) false] := by
  intro relates
  have last := (((relates _ rfl).2 _ rfl).2 _ rfl).2 _ rfl
  have kept := (last.1 ⟨[112], [97]⟩ 0 1 rfl Nat.zero_lt_one rfl).1
  rw [onResult_served] at kept
  cases kept

end ServiceManager

end Mindroid
