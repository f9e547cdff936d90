import Mindroid.Util.Concurrent.PromiseFrames

/-!
# `Promise::anyOf`

The consumer and the actions are created by the call, so nobody else completes the
consumer.  Everything else may go on at the same time: the members are completed by any
threads, other actions are registered, and user functions are executed.
-/

set_option autoImplicit false

namespace Mindroid

namespace PromiseMachine

open Foundation

variable {P A V : Type} [Inhabited V]

/-- What `anyOf` creates for the given promises. -/
structure AnyOf (classOf : A → ActionClass P A V) (members : List P) (consumer : P)
    (actions : List A) : Prop where
  created : actions.map classOf = members.map fun member => .relay member consumer
  alone : ∀ action, (classOf action).consumer = consumer → action ∈ actions
  calls : ∀ promises action outcome, ∀ call ∈ (classOf action).calls outcome,
    CallAllowed (fun _ promise _ => promise ≠ consumer) promises call

namespace AnyOf

variable {classOf : A → ActionClass P A V} {members : List P} {consumer : P} {actions : List A}

omit [Inhabited V] in
theorem discipline (anyOf : AnyOf classOf members consumer actions) :
    Discipline classOf fun _ promise _ => promise ≠ consumer where
  stable _ _ _ different := different
  calls promises action _ := anyOf.calls promises action _

omit [Inhabited V] in
theorem classOf_eq (anyOf : AnyOf classOf members consumer actions) {action : A}
    (member : action ∈ actions) :
    ∃ promise ∈ members, classOf action = .relay promise consumer := by
  have created : classOf action ∈ members.map fun member => .relay member consumer := by
    rw [← anyOf.created]
    exact List.mem_map_of_mem member
  obtain ⟨promise, isMember, same⟩ := List.mem_map.mp created
  exact ⟨promise, isMember, same.symm⟩

omit [Inhabited V] in
theorem action_of_member (anyOf : AnyOf classOf members consumer actions) {promise : P}
    (member : promise ∈ members) :
    ∃ action ∈ actions, classOf action = .relay promise consumer := by
  have created : .relay promise consumer ∈ actions.map classOf := by
    rw [anyOf.created]
    exact List.mem_map_of_mem (f := fun member => ActionClass.relay member consumer) member
  exact List.mem_map.mp created

variable [DecidableEq P] [DecidableEq A] {start state : State P A V}

omit [DecidableEq P] [DecidableEq A] in
theorem relayed (anyOf : AnyOf classOf members consumer actions)
    (disciplined : Disciplined classOf (fun _ promise _ => promise ≠ consumer) state)
    (done : state.shared.Done consumer) :
    ∃ member ∈ members, state.shared.Done member ∧
      (state.shared.promise consumer).outcome =
        RelayAction.run (state.shared.promise member).outcome := by
  obtain ⟨action, isConsumer, allDone, gives⟩ := disciplined.produced done (not_not_intro rfl)
  obtain ⟨member, isMember, type⟩ := anyOf.classOf_eq (anyOf.alone action isConsumer)
  have memberDone := allDone _ (classOf action).supplier_mem
  rw [type] at gives memberDone
  exact ⟨member, isMember, memberDone, gives⟩

theorem delivered (anyOf : AnyOf classOf members consumer actions) (initial : Initial start)
    (disciplined : Disciplined classOf (fun _ promise _ => promise ≠ consumer) state)
    (reached : Reachable (· = start) (machine classOf).Step state)
    (returned : ∀ action ∈ actions, state.shared.combined action = true ∧
      ¬state.Pending (registers action))
    {promise : P} (isMember : promise ∈ members) (done : state.shared.Done promise)
    (completed : ¬state.Pending (completes promise)) : state.shared.Done consumer := by
  obtain ⟨action, member, type⟩ := anyOf.action_of_member isMember
  have suppliers : (classOf action).suppliers = [promise] := by rw [type]; rfl
  have single : ∀ supplier ∈ (classOf action).suppliers, supplier = promise := by
    intro supplier isSupplier
    rw [suppliers] at isSupplier
    exact List.mem_singleton.mp isSupplier
  have delivered := disciplined.quiet_delivers initial reached (by rw [type]; rfl)
    (returned action member) (fun supplier isSupplier => by rwa [single supplier isSupplier])
    (fun supplier isSupplier => by rwa [single supplier isSupplier]) (by rw [type]; rfl)
  rwa [type] at delivered

/-- The promise that `anyOf` returns is completed by the first member to be done, as a
relay does it, and only by that. -/
theorem reachable_anyOf (anyOf : AnyOf classOf members consumer actions) (initial : Initial start)
    (calls : Machine.Facts (CallsAllowed fun _ promise _ => promise ≠ consumer) start)
    (reached : Reachable (· = start) (machine classOf).Step state) :
    (state.shared.Done consumer → ∃ member ∈ members, state.shared.Done member ∧
      (state.shared.promise consumer).outcome =
        RelayAction.run (state.shared.promise member).outcome) ∧
    ((∀ action ∈ actions, state.shared.combined action = true ∧
        ¬state.Pending (registers action)) →
      (∃ member ∈ members, state.shared.Done member ∧ ¬state.Pending (completes member)) →
        state.shared.Done consumer) ∧
    (state.shared.Done consumer →
      ∀ later, Reachable (· = state) (machine classOf).Step later →
        later.shared.Done consumer ∧
          (later.shared.promise consumer).outcome = (state.shared.promise consumer).outcome) := by
  have disciplined : Disciplined classOf (fun _ promise _ => promise ≠ consumer) state :=
    .reachable anyOf.discipline initial calls reached
  refine ⟨anyOf.relayed disciplined, ?_, fun done later reachedLater => ?_⟩
  · rintro returned ⟨promise, isMember, done, completed⟩
    exact anyOf.delivered initial disciplined reached returned isMember done completed
  · have grows := (grows_later disciplined.toSound reachedLater).2
    exact ⟨(grows.kept consumer done).1, grows.outcome done⟩

end AnyOf

/-! Two threads complete the members of an `anyOf` that a third thread calls. -/

/-- The members are 0 and 1, the consumer is 2. -/
def anyOfTwo : Bool → ActionClass (Fin 3) Bool Nat
  | false => .relay 0 2
  | true => .relay 1 2

theorem anyOfTwo_anyOf : AnyOf anyOfTwo [0, 1] 2 [false, true] where
  created := rfl
  alone action _ := by cases action <;> simp
  calls _ action _ call member := by cases action <;> cases member

def anyOfTwoCalls : List (List (Instr (Fin 3) Bool Nat)) :=
  [[.call (.anyOf 2 [false, true])], [.call (.complete 0 (.ok 7))],
    [.call (.complete 1 (.ok 8))]]

/-- The first member is completed between the registration of the two actions. -/
theorem anyOfTwo_done : ∃ final : State (Fin 3) Bool Nat, final.shared.Done 2 ∧
    (final.shared.promise 2).outcome = .ok 7 ∧ ¬final.shared.Done 1 := by
  have initial : Initial (.running fresh anyOfTwoCalls : State (Fin 3) Bool Nat) :=
    { shared := rfl
      calls := by
        intro thread instr member
        match thread with
        | 0 | 1 | 2 => exact ⟨_, List.mem_singleton.mp member⟩
        | _ + 3 => cases member }
  have calls : Machine.Facts (CallsAllowed fun _ promise _ => promise ≠ 2)
      (.running fresh anyOfTwoCalls : State (Fin 3) Bool Nat) := by
    rintro thread instr member call rfl
    match thread with
    | 0 =>
        cases List.mem_singleton.mp member
        exact trivial
    | 1 | 2 =>
        cases List.mem_singleton.mp member
        intro same
        cases same
    | _ + 3 => cases member
  have scheduled : ∃ final, (machine anyOfTwo).schedule (execute anyOfTwo)
      (List.replicate 5 0 ++ List.replicate 13 1 ++ List.replicate 6 0) fresh anyOfTwoCalls =
        some (final, [[], [], [.call (.complete 1 (.ok 8))]]) ∧
      (final.promise 0).mIsDone = true ∧ (final.promise 0).outcome = .ok 7 ∧
      (final.promise 1).mIsDone = false ∧ (∀ action, final.combined action = true) :=
    ⟨_, rfl, rfl, rfl, rfl, by decide⟩
  obtain ⟨final, scheduled, done, outcome, open', combined⟩ := scheduled
  have reached := Machine.schedule_reachable id scheduled (.initial rfl)
  obtain ⟨produced, delivered, -⟩ := anyOfTwo_anyOf.reachable_anyOf initial calls reached
  have idle : ∀ kind : Instr (Fin 3) Bool Nat → Prop, ¬kind (.call (.complete 1 (.ok 8))) →
      ¬(Config.running final [[], [], [.call (.complete 1 (.ok 8))]]).Pending kind := by
    rintro kind other ⟨thread, instr, member, isKind⟩
    match thread with
    | 0 | 1 => cases member
    | 2 =>
        rw [List.mem_singleton.mp member] at isKind
        exact other isKind
    | _ + 3 => cases member
  have isDone := delivered (fun action _ => ⟨combined action, idle _ not_false⟩)
    ⟨0, List.mem_cons_self, done, idle _ not_false⟩
  refine ⟨_, isDone, ?_, ?_⟩
  · obtain ⟨member, isMember, memberDone, gives⟩ := produced isDone
    rw [gives]
    rcases List.mem_cons.mp isMember with rfl | later
    · exact congrArg RelayAction.run outcome
    · rw [List.mem_singleton.mp later] at memberDone
      exact absurd (open'.symm.trans memberDone) Bool.false_ne_true
  · intro memberDone
    exact absurd (open'.symm.trans memberDone) Bool.false_ne_true

end PromiseMachine

end Mindroid
