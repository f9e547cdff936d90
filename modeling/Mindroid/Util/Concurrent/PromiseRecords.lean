import Mindroid.Util.Concurrent.PromiseChanges

/-!
# Promises and records agree

What is recorded about calls, completions and actions agrees with the promises, and no
change breaks that.
-/

set_option autoImplicit false

namespace Mindroid

namespace PromiseMachine

open Foundation

variable {P A V : Type} [Inhabited V] {classOf : A → ActionClass P A V}

/-! ## Agreement -/

variable (classOf) in
/-- The promises and the records agree. -/
structure Consistent (promises : Promises P A V) : Prop where
  listed : ∀ action supplier, action ∈ (promises.promise supplier).mActions →
    supplier ∈ (classOf action).suppliers
  visited : ∀ action supplier, promises.visited action supplier = true → promises.Done supplier
  claimed : ∀ action, promises.claimed action = true → promises.AllDone classOf action
  triggered : ∀ action, action ∈ promises.triggered ↔ promises.claimed action = true
  once : promises.triggered.Nodup
  submitted : ∀ action ∈ promises.submitted, promises.AllDone classOf action
  deferred : ∀ action ∈ promises.submitted, (classOf action).isDeferred = true
  noException : ∀ promise, ¬promises.Done promise →
    (promises.promise promise).mException = none
  completedBy : ∀ promise, promises.completedBy promise ≠ none ↔ promises.Done promise
  numbers : ∀ promise number, promises.completedBy promise = some (.call number) →
    number < promises.nextCall
  returned : ∀ number promise result, (number, promise, result) ∈ promises.returned →
    promises.Done promise ∧ number < promises.nextCall ∧
      (result = true ↔ promises.completedBy promise = some (.call number))
  produced : ∀ promise, promises.completedBy promise = some .action →
    ∃ action, (classOf action).consumer = promise ∧
      promises.Produces classOf action (promises.promise promise).outcome
  registered : ∀ action, promises.registered action = true →
    ∀ supplier ∈ (classOf action).suppliers, promises.Armed action supplier
  removed : ∀ action supplier, promises.removed action supplier = true →
    (classOf action).isRelay = true ∧ promises.Done (classOf action).consumer
  combined : ∀ action, promises.combined action = true →
    promises.registered action = true ∨ promises.Done (classOf action).consumer

theorem consistent_fresh : Consistent classOf (fresh : Promises P A V) where
  listed _ _ member := absurd member List.not_mem_nil
  visited _ _ visited := by cases visited
  claimed _ claimed := by cases claimed
  triggered action := by simp [fresh]
  once := List.nodup_nil
  submitted _ member := absurd member List.not_mem_nil
  deferred _ member := absurd member List.not_mem_nil
  noException _ _ := rfl
  completedBy promise := by simp [fresh, Promises.Done]
  numbers _ _ completer := by cases completer
  returned _ _ _ member := absurd member List.not_mem_nil
  produced _ completer := by cases completer
  registered _ registered := by cases registered
  removed _ _ removed := by cases removed
  combined _ combined := by cases combined

section Changes

variable {promises after : Promises P A V} [DecidableEq P]

theorem Consistent.settle {promise : P} {outcome : Outcome V} {completer : Completer}
    (consistent : Consistent classOf promises) (pending : ¬promises.Done promise)
    (numbered : ∀ number, completer = .call number → number < promises.nextCall)
    (produces : completer = .action → ∃ action, (classOf action).consumer = promise ∧
      promises.Produces classOf action outcome) :
    Consistent classOf (promises.settle promise outcome completer) := by
  have grows : Grows promises (promises.settle promise outcome completer) :=
    grows_settle promise outcome completer
  obtain ⟨claimed, visited, removed, registered, combined, nextCall, returned, triggered,
    submitted⟩ := promises.settle_rest promise outcome completer
  obtain ⟨self, by'⟩ := promises.promise_settle_self pending outcome completer
  have done := promises.done_settle_self promise outcome completer
  exact
    { listed := by
        intro action supplier member
        rw [promises.mActions_settle] at member
        exact consistent.listed action supplier member
      visited := by
        intro action supplier isVisited
        rw [visited] at isVisited
        exact (grows.kept _ (consistent.visited action supplier isVisited)).1
      claimed := by
        intro action isClaimed
        rw [claimed] at isClaimed
        exact grows.allDone (consistent.claimed action isClaimed)
      triggered := by
        rw [triggered, claimed]
        exact consistent.triggered
      once := by
        rw [triggered]
        exact consistent.once
      submitted := by
        rw [submitted]
        exact fun action member => grows.allDone (consistent.submitted action member)
      deferred := by
        rw [submitted]
        exact consistent.deferred
      noException := by
        intro other notDone
        by_cases same : other = promise
        · rw [same] at notDone
          exact absurd done notDone
        · rw [(promises.promise_settle_of_ne outcome completer same).1]
          rw [Promises.Done, (promises.promise_settle_of_ne outcome completer same).1] at notDone
          exact consistent.noException other notDone
      completedBy := by
        intro other
        by_cases same : other = promise
        · rw [same, by']
          exact ⟨fun _ => done, fun _ => Option.some_ne_none _⟩
        · obtain ⟨kept, completer⟩ := promises.promise_settle_of_ne outcome completer same
          rw [Promises.Done, kept, completer]
          exact consistent.completedBy other
      numbers := by
        intro other number isCompleter
        rw [nextCall]
        by_cases same : other = promise
        · rw [same, by'] at isCompleter
          exact numbered number (Option.some.inj isCompleter)
        · rw [(promises.promise_settle_of_ne outcome completer same).2] at isCompleter
          exact consistent.numbers other number isCompleter
      returned := by
        intro number other result member
        rw [returned] at member
        obtain ⟨isDone, below, iff⟩ := consistent.returned number other result member
        obtain ⟨isDone', -, -, kept⟩ := grows.kept other isDone
        rw [nextCall, kept]
        exact ⟨isDone', below, iff⟩
      produced := by
        intro other isAction
        by_cases same : other = promise
        · rw [same] at isAction ⊢
          rw [by'] at isAction
          obtain ⟨action, isConsumer, gives⟩ := produces (Option.some.inj isAction)
          refine ⟨action, isConsumer, ?_⟩
          rw [self, Promise.outcome_settled (consistent.noException promise pending)]
          exact grows.produces gives
        · obtain ⟨kept, completer⟩ := promises.promise_settle_of_ne outcome completer same
          rw [completer] at isAction
          obtain ⟨action, isConsumer, gives⟩ := consistent.produced other isAction
          rw [kept]
          exact ⟨action, isConsumer, grows.produces gives⟩
      registered := by
        intro action isRegistered supplier member
        rw [registered] at isRegistered
        exact grows.armed _ _ (consistent.registered action isRegistered supplier member)
      removed := by
        intro action supplier isRemoved
        rw [removed] at isRemoved
        obtain ⟨isRelay, done⟩ := consistent.removed action supplier isRemoved
        exact ⟨isRelay, (grows.kept _ done).1⟩
      combined := by
        intro action isCombined
        rw [combined] at isCombined
        rw [registered]
        exact (consistent.combined action isCombined).imp_right fun done => (grows.kept _ done).1 }

theorem Consistent.setActions {supplier : P} {actions : List A}
    (consistent : Consistent classOf promises)
    (listed : ∀ action ∈ actions, supplier ∈ (classOf action).suppliers)
    (armed : ∀ action ∈ (promises.promise supplier).mActions, action ∈ actions ∨
      promises.visited action supplier = true ∨ promises.removed action supplier = true) :
    Consistent classOf (promises.setActions supplier actions) := by
  have grows := grows_setActions supplier actions armed
  have isDone : ∀ other, (promises.setActions supplier actions).Done other ↔ promises.Done other :=
    fun other => by rw [Promises.Done, (promises.promise_setActions supplier other actions).1]; rfl
  exact
    { listed := by
        intro action other member
        by_cases same : other = supplier
        · rw [same] at member ⊢
          rw [promises.mActions_setActions_self] at member
          exact listed action member
        · rw [promises.promise_setActions_of_ne actions same] at member
          exact consistent.listed action other member
      visited := fun action other isVisited =>
        (isDone other).mpr (consistent.visited action other isVisited)
      claimed := fun action isClaimed => grows.allDone (consistent.claimed action isClaimed)
      triggered := consistent.triggered
      once := consistent.once
      submitted := fun action member => grows.allDone (consistent.submitted action member)
      deferred := consistent.deferred
      noException := by
        intro other notDone
        rw [(promises.promise_setActions supplier other actions).2.2]
        exact consistent.noException other (mt (isDone other).mpr notDone)
      completedBy := fun other => (consistent.completedBy other).trans (isDone other).symm
      numbers := consistent.numbers
      returned := by
        intro number other result member
        obtain ⟨done, rest⟩ := consistent.returned number other result member
        exact ⟨(isDone other).mpr done, rest⟩
      produced := by
        intro other isAction
        obtain ⟨action, isConsumer, gives⟩ := consistent.produced other isAction
        obtain ⟨-, result, exception⟩ := promises.promise_setActions supplier other actions
        refine ⟨action, isConsumer, ?_⟩
        rw [Promise.outcome, result, exception]
        exact grows.produces gives
      registered := fun action isRegistered other member =>
        grows.armed _ _ (consistent.registered action isRegistered other member)
      removed := by
        intro action other isRemoved
        obtain ⟨isRelay, done⟩ := consistent.removed action other isRemoved
        exact ⟨isRelay, (isDone _).mpr done⟩
      combined := fun action isCombined =>
        (consistent.combined action isCombined).imp_right (isDone _).mpr }

variable [DecidableEq A]

theorem Consistent.visit {supplier : P} (consistent : Consistent classOf promises) (action : A)
    (done : promises.Done supplier) : Consistent classOf (promises.visit action supplier) :=
  { consistent with
    visited := by
      intro later other isVisited
      rcases (promises.visited_visit _ _ _ _).mp isVisited with ⟨-, rfl⟩ | before
      · exact done
      · exact consistent.visited later other before
    registered := fun later isRegistered other member =>
      (grows_visit action supplier).armed _ _
        (consistent.registered later isRegistered other member) }

theorem Consistent.remove {action : A} (consistent : Consistent classOf promises) (supplier : P)
    (isRelay : (classOf action).isRelay = true) (done : promises.Done (classOf action).consumer) :
    Consistent classOf (promises.remove action supplier) := by
  have marks : Consistent classOf
      { promises with removed := (promises.remove action supplier).removed } :=
    { consistent with
      registered := by
        intro later isRegistered other member
        refine (consistent.registered later isRegistered other member).imp_right (Or.imp_right ?_)
        exact fun before => (promises.removed_remove _ _ _ _).mpr (.inr before)
      removed := by
        intro later other isRemoved
        rcases (promises.removed_remove _ _ _ _).mp isRemoved with ⟨rfl, -⟩ | before
        · exact ⟨isRelay, done⟩
        · exact consistent.removed later other before }
  apply marks.setActions
  · exact fun other isListed => consistent.listed other supplier (List.mem_of_mem_erase isListed)
  · intro other isListed
    by_cases same : other = action
    · exact .inr (.inr ((promises.removed_remove _ _ _ _).mpr (.inl ⟨same, rfl⟩)))
    · exact .inl ((List.mem_erase_of_ne same).mpr isListed)

omit [DecidableEq P] in
theorem Consistent.claim {action : A} (consistent : Consistent classOf promises)
    (allDone : promises.AllDone classOf action) (unclaimed : promises.claimed action = false) :
    Consistent classOf (promises.claim action) := by
  have isClaimed : ∀ other, (promises.claim action).claimed other = true ↔
      other = action ∨ promises.claimed other = true := by
    intro other
    by_cases same : other = action
    · simp [Promises.claim, same]
    · simp [Promises.claim, same]
  refine { consistent with claimed := ?_, triggered := ?_, once := ?_ }
  · intro other claims
    rcases (isClaimed other).mp claims with rfl | before
    · exact allDone
    · exact consistent.claimed other before
  · intro other
    rw [isClaimed, ← consistent.triggered]
    exact List.mem_cons
  · refine List.nodup_cons.mpr ⟨?_, consistent.once⟩
    rw [consistent.triggered, unclaimed]
    exact Bool.false_ne_true

theorem Consistent.change (change : Change classOf promises after)
    (consistent : Consistent classOf promises) : Consistent classOf after := by
  induction change with
  | refl promises => exact consistent
  | trans _ _ first second => exact second (first consistent)
  | @refused promises promise done =>
      refine { consistent with numbers := ?_, returned := ?_ }
      · intro other number completer
        exact Nat.lt_succ_of_lt (consistent.numbers other number completer)
      · intro number other result member
        rcases List.mem_cons.mp member with same | before
        · obtain ⟨rfl, rfl, rfl⟩ : number = promises.nextCall ∧ other = promise ∧ result = false := by
            simpa using same
          refine ⟨done, Nat.lt_succ_self _, iff_of_false Bool.false_ne_true fun completer => ?_⟩
          exact absurd (consistent.numbers other _ completer) (Nat.lt_irrefl _)
        · obtain ⟨isDone, below, iff⟩ := consistent.returned number other result before
          exact ⟨isDone, Nat.lt_succ_of_lt below, iff⟩
  | @completed promises promise outcome pending =>
      have counted : Consistent classOf { promises with nextCall := promises.nextCall + 1 } := by
        refine { consistent with numbers := ?_, returned := ?_ }
        · intro other number completer
          exact Nat.lt_succ_of_lt (consistent.numbers other number completer)
        · intro number other result member
          obtain ⟨isDone, below, iff⟩ := consistent.returned number other result member
          exact ⟨isDone, Nat.lt_succ_of_lt below, iff⟩
      apply counted.settle pending
      · intro number same
        cases same
        exact Nat.lt_succ_self _
      · intro same
        cases same
  | @returned promises number promise completed =>
      refine { consistent with returned := ?_ }
      intro other promise' result member
      rcases List.mem_cons.mp member with same | before
      · obtain ⟨rfl, rfl, rfl⟩ : other = number ∧ promise' = promise ∧ result = true := by
          simpa using same
        refine ⟨(consistent.completedBy _).mp ?_, consistent.numbers _ _ completed, ?_⟩
        · rw [completed]
          exact Option.some_ne_none _
        · exact ⟨fun _ => completed, fun _ => rfl⟩
      · exact consistent.returned other promise' result before
  | @settled promises action outcome produces =>
      by_cases done : promises.Done (classOf action).consumer
      · rwa [promises.settle_of_done done]
      · apply consistent.settle done
        · intro number same
          cases same
        · exact fun _ => ⟨action, rfl, produces⟩
  | visited done => exact consistent.visit _ done
  | @popped promises action supplier behind done front =>
      have visits := consistent.visit action done
      apply visits.setActions
      · intro other member
        exact consistent.listed other supplier (by rw [front]; exact List.mem_cons_of_mem _ member)
      · intro other member
        rw [show (promises.visit action supplier).promise = promises.promise from rfl, front] at member
        rcases List.mem_cons.mp member with rfl | later
        · exact .inr (.inl ((promises.visited_visit _ _ _ _).mpr (.inl ⟨rfl, rfl⟩)))
        · exact .inl later
  | @queued promises action supplier pending member =>
      apply consistent.setActions
      · intro other isListed
        rcases List.mem_append.mp isListed with before | new
        · exact consistent.listed other supplier before
        · rwa [List.mem_singleton.mp new]
      · exact fun other isListed => .inl (List.mem_append_left _ isListed)
  | @passed promises action supplier done member =>
      have visits := consistent.visit action done
      apply visits.setActions
      · intro other isListed
        rcases List.mem_append.mp (List.mem_of_mem_erase isListed) with before | new
        · exact consistent.listed other supplier before
        · rwa [List.mem_singleton.mp new]
      · intro other isListed
        by_cases same : other = action
        · exact .inr (.inl ((promises.visited_visit _ _ _ _).mpr (.inl ⟨same, rfl⟩)))
        · exact .inl ((List.mem_erase_of_ne same).mpr (List.mem_append_left _ isListed))
  | removed supplier isRelay done => exact consistent.remove supplier isRelay done
  | claimed allDone unclaimed => exact consistent.claim allDone unclaimed
  | @handed promises action allDone isDeferred =>
      refine { consistent with submitted := ?_, deferred := ?_ }
      · intro other member
        rcases List.mem_cons.mp member with rfl | before
        · exact allDone
        · exact consistent.submitted other before
      · intro other member
        rcases List.mem_cons.mp member with rfl | before
        · exact isDeferred
        · exact consistent.deferred other before
  | @taken promises action =>
      refine { consistent with submitted := ?_, deferred := ?_ }
      · exact fun other member => consistent.submitted other (List.mem_of_mem_erase member)
      · exact fun other member => consistent.deferred other (List.mem_of_mem_erase member)
  | @registered promises actions armed =>
      refine { consistent with registered := ?_, combined := ?_ }
      · intro action isRegistered
        rcases Bool.or_eq_true_iff.mp isRegistered with before | new
        · exact consistent.registered action before
        · exact armed action (by simpa using new)
      · intro action isCombined
        refine (consistent.combined action isCombined).imp_left fun before => ?_
        exact Bool.or_eq_true_iff.mpr (.inl before)
  | @combined promises actions ready =>
      refine { consistent with combined := ?_ }
      intro action isCombined
      rcases Bool.or_eq_true_iff.mp isCombined with before | new
      · exact consistent.combined action before
      · exact ready action (by simpa using new)

end Changes

end PromiseMachine

end Mindroid
