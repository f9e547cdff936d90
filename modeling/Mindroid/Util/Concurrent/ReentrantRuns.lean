import Mathlib.Algebra.Order.BigOperators.Group.List
import Mathlib.Algebra.Order.Group.Nat
import Mindroid.Util.Concurrent.ReentrantActions

/-!
# Which actions run when the list is visited

Whatever a run of the actions returns, it has run each of them once.  It does return
exactly when no action disturbs the loop that executes it; otherwise the loop goes on
at a node that has been erased.
-/

set_option autoImplicit false

namespace Mindroid

namespace Dependents

variable {promise middle finished : Dependents} {fuel : Nat}

/-- Peel one step off a computation that returns. -/
private theorem peel {α β : Type} {first : Except Fault α} {rest : α → Except Fault β} {result : β}
    (returned : first >>= rest = .ok result) :
    ∃ value, first = .ok value ∧ rest value = .ok result := by
  cases first with
  | error fault => cases returned
  | ok value => exact ⟨value, rfl, returned⟩

/-- A promise that is done. -/
structure Completed (promise : Dependents) : Prop extends promise.WellFormed where
  isDone : promise.mIsDone = true

/-- What every step keeps or adds to: the list only shrinks, and what leaves it has been
run or removed. -/
structure Advances (promise finished : Dependents) : Prop where
  completed : finished.Completed
  part : finished.mActions.nodes.Sublist promise.mActions.nodes
  grows : promise.nextAction ≤ finished.nextAction
  claimed : ∀ action ∈ promise.claimed, action ∈ finished.claimed
  created : ∀ action, promise.nextAction ≤ action → action < finished.nextAction →
    action ∈ finished.claimed
  each : ∃ removed, finished.removed = removed ++ promise.removed ∧
    ∀ action ∈ promise.mActions.values, action ∈ finished.mActions.values ∨
      (action.suppliersDone = true → action.id ∈ finished.claimed) ∨ action.id ∈ removed

theorem Advances.refl (completed : promise.Completed) : promise.Advances promise where
  completed := completed
  part := List.Sublist.refl _
  grows := Nat.le_refl _
  claimed _ member := member
  created _ above below := absurd below (Nat.not_lt.mpr above)
  each := ⟨[], rfl, fun _ member => .inl member⟩

theorem Advances.trans (first : promise.Advances middle) (second : middle.Advances finished) :
    promise.Advances finished where
  completed := second.completed
  part := second.part.trans first.part
  grows := Nat.le_trans first.grows second.grows
  claimed action member := second.claimed action (first.claimed action member)
  created action above below := by
    rcases Nat.lt_or_ge action middle.nextAction with early | late
    · exact second.claimed action (first.created action above early)
    · exact second.created action late below
  each := by
    obtain ⟨early, earlyRemoved, earlyEach⟩ := first.each
    obtain ⟨late, lateRemoved, lateEach⟩ := second.each
    refine ⟨late ++ early, by rw [lateRemoved, earlyRemoved, List.append_assoc], ?_⟩
    intro action member
    rcases earlyEach action member with stays | run | removed
    · rcases lateEach action stays with stays' | run | removed
      · exact .inl stays'
      · exact .inr (.inl run)
      · exact .inr (.inr (List.mem_append_left _ removed))
    · exact .inr (.inl fun suppliersDone => second.claimed _ (run suppliersDone))
    · exact .inr (.inr (List.mem_append_right _ removed))

/-! ## Single steps -/

/-- The node is erased. -/
def pop (promise : Dependents) (node : NodeId) : Dependents :=
  { promise with mActions := promise.mActions.erase node }

/-- The claim flag of the action is set. -/
def marked (promise : Dependents) (action : ActionId) : Dependents :=
  { promise with claimed := action :: promise.claimed }

/-- A new action has been registered, removed again, and claimed. -/
def started (promise : Dependents) (script : Script) : Dependents where
  mIsDone := promise.mIsDone
  mActions := (promise.mActions.add ⟨promise.nextAction, true, script⟩).remove
    fun other => other.id == promise.nextAction
  claimed := promise.nextAction :: promise.claimed
  nextAction := promise.nextAction + 1
  removed := promise.removed

section Loop

theorem runActionsFrom_end :
    runActionsFrom (fuel + 1) ⟨false, none⟩ promise = .ok promise := rfl

variable {node : NodeId} {action : Action} {behind : List (NodeId × Action)}

theorem runActionsFrom_front (front : promise.mActions.nodes = (node, action) :: behind) :
    runActionsFrom (fuel + 1) ⟨false, some node⟩ promise =
      tryRun fuel action (promise.pop node) >>=
        runActionsFrom fuel ⟨false, behind.head?.map Prod.fst⟩ := by
  have value := LinkedList.dereference_front front
  have next := LinkedList.successor_front front
  simp only [runActionsFrom, LinkedList.Iterator.hasNext, LinkedList.Iterator.next,
    LinkedList.Iterator.remove, value, next, pop, bind, Except.bind, pure, Except.pure,
    Bool.not_false, if_true, Option.isSome_some]

theorem runActionsFrom_dead (dead : node ∉ promise.mActions.nodes.map Prod.fst) :
    runActionsFrom (fuel + 1) ⟨false, some node⟩ promise = .error .deadNode := by
  have stale := LinkedList.dereference_dead dead
  simp only [runActionsFrom, LinkedList.Iterator.hasNext, LinkedList.Iterator.next, stale, bind,
    Except.bind, Bool.not_false, if_true, Option.isSome_some]

theorem iterator_front (front : promise.mActions.nodes = (node, action) :: behind) :
    promise.mActions.iterator = ⟨false, some node⟩ := by
  rw [LinkedList.iterator, front]
  rfl

theorem iterator_nil (empty : promise.mActions.nodes = []) :
    promise.mActions.iterator = ⟨false, none⟩ := by
  rw [LinkedList.iterator, empty]
  rfl

/-- The loop goes on as a loop from the start would, or at a node that is gone. -/
theorem runActionsFrom_resume (fuel : Nat) (distinct : (behind.map Prod.fst).Nodup)
    (part : promise.mActions.nodes.Sublist behind) :
    runActionsFrom fuel ⟨false, behind.head?.map Prod.fst⟩ promise =
        runActionsFrom fuel promise.mActions.iterator promise ∨
      ∃ node ∈ behind.head?, node.1 ∉ promise.mActions.nodes.map Prod.fst := by
  cases behind with
  | nil => exact .inl (by rw [iterator_nil (List.sublist_nil.mp part)]; rfl)
  | cons first behind =>
      by_cases alive : first.1 ∈ promise.mActions.nodes.map Prod.fst
      · obtain ⟨kept, front, -⟩ := LinkedList.front_of_sublist distinct part alive
        exact .inl (by rw [iterator_front front]; rfl)
      · exact .inr ⟨first, rfl, alive⟩

end Loop

theorem tryRun_idle {action : Action}
    (idle : action.suppliersDone = true → action.id ∈ promise.claimed) :
    tryRun (fuel + 1) action promise = .ok promise := by
  cases suppliersDone : action.suppliersDone with
  | false => simp [tryRun, suppliersDone]
  | true => simp [tryRun, claim, suppliersDone, idle suppliersDone]

theorem tryRun_claims {action : Action} (suppliersDone : action.suppliersDone = true)
    (unclaimed : action.id ∉ promise.claimed) :
    tryRun (fuel + 1) action promise = run fuel action.script (promise.marked action.id) := by
  simp [tryRun, claim, suppliersDone, unclaimed, marked]

theorem setResult_completed (completed : promise.Completed) : promise.setResult = promise := by
  simp [setResult, completed.isDone]

theorem run_onComplete (completed : promise.Completed) (next : Script) :
    run (fuel + 1) (.onComplete next) promise =
      runActionsFrom fuel promise.mActions.iterator promise >>= run fuel next := by
  simp [run, setResult_completed completed]

/-- An action that is registered now runs at once. -/
theorem run_addAction (completed : promise.Completed) (body next : Script) :
    run (fuel + 3) (.addAction body next) promise =
      run fuel body (promise.started body) >>= run (fuel + 2) next := by
  have unclaimed : promise.nextAction ∉ promise.claimed := by
    intro member
    exact Nat.lt_irrefl _ (completed.claimed _ member)
  simp [run, addAction, newAction, tryRun, claim, completed.isDone, unclaimed, started]

/-- Such a registration needs fuel. -/
theorem run_addAction_returned {body next : Script} (completed : promise.Completed)
    (returned : run fuel (.addAction body next) promise = .ok finished) :
    ∃ less middle, fuel = less + 3 ∧ run less body (promise.started body) = .ok middle ∧
      run (less + 2) next middle = .ok finished := by
  match fuel with
  | 0 => cases returned
  | 1 => cases returned
  | 2 =>
      simp [run, addAction, completed.isDone, tryRun, newAction, bind, Except.bind] at returned
  | less + 3 =>
      rw [run_addAction completed] at returned
      obtain ⟨middle, first, second⟩ := peel returned
      exact ⟨less, middle, rfl, first, second⟩

theorem values_pop {node : NodeId} {action : Action} {behind : List (NodeId × Action)}
    (front : promise.mActions.nodes = (node, action) :: behind) :
    promise.mActions.values = action :: (promise.pop node).mActions.values := by
  rw [LinkedList.values, LinkedList.values, pop, LinkedList.nodes_erase_front front, front]
  rfl

theorem nodes_started (completed : promise.Completed) (script : Script) :
    (promise.started script).mActions.nodes = promise.mActions.nodes := by
  apply LinkedList.nodes_remove_add
  · exact beq_self_eq_true _
  · intro node member
    have below := completed.registered node.2 (List.mem_map_of_mem member)
    exact beq_false_of_ne (Nat.ne_of_lt below)

theorem Completed.pop (completed : promise.Completed) (node : NodeId) :
    (promise.pop node).Completed where
  registered action member :=
    completed.registered action ((List.eraseP_sublist.map Prod.snd).subset member)
  claimed := completed.claimed
  once := completed.once
  isDone := completed.isDone

theorem advances_marked {action : ActionId} (completed : promise.Completed)
    (below : action < promise.nextAction) (unclaimed : action ∉ promise.claimed) :
    promise.Advances (promise.marked action) where
  completed :=
    { registered := completed.registered
      claimed := by
        intro other member
        rcases List.mem_cons.mp member with rfl | old
        · exact below
        · exact completed.claimed other old
      once := List.nodup_cons.mpr ⟨unclaimed, completed.once⟩
      isDone := completed.isDone }
  part := List.Sublist.refl _
  grows := Nat.le_refl _
  claimed _ member := List.mem_cons_of_mem _ member
  created _ above below := absurd below (Nat.not_lt.mpr above)
  each := ⟨[], rfl, fun _ member => .inl member⟩

theorem advances_started (completed : promise.Completed) (script : Script) :
    promise.Advances (promise.started script) where
  completed :=
    { registered := by
        intro action member
        rw [LinkedList.values, nodes_started completed script] at member
        exact Nat.lt_succ_of_lt (completed.registered action member)
      claimed := by
        intro action member
        rcases List.mem_cons.mp member with rfl | old
        · exact Nat.lt_succ_self _
        · exact Nat.lt_succ_of_lt (completed.claimed action old)
      once := List.nodup_cons.mpr
        ⟨fun member => Nat.lt_irrefl _ (completed.claimed _ member), completed.once⟩
      isDone := completed.isDone }
  part := by rw [nodes_started completed script]
  grows := Nat.le_succ _
  claimed _ member := List.mem_cons_of_mem _ member
  created action above below := by
    have same : action = promise.nextAction := Nat.le_antisymm (Nat.le_of_lt_succ below) above
    rw [same]
    exact List.mem_cons_self
  each := by
    refine ⟨[], rfl, fun action member => .inl ?_⟩
    rwa [LinkedList.values, nodes_started completed script]

theorem advances_removeAction (completed : promise.Completed) (action : ActionId) :
    promise.Advances (promise.removeAction action) where
  completed :=
    { registered := by
        intro other member
        exact completed.registered other ((List.eraseP_sublist.map Prod.snd).subset member)
      claimed := completed.claimed
      once := completed.once
      isDone := completed.isDone }
  part := List.eraseP_sublist
  grows := Nat.le_refl _
  claimed _ member := member
  created _ above below := absurd below (Nat.not_lt.mpr above)
  each := by
    by_cases found : promise.mActions.values.any fun other => other.id == action
    · refine ⟨[action], by rw [removeAction, if_pos found]; rfl, ?_⟩
      intro other member
      by_cases same : other.id = action
      · exact .inr (.inr (List.mem_singleton.mpr same))
      · left
        obtain ⟨node, isNode, rfl⟩ := List.mem_map.mp member
        exact List.mem_map_of_mem ((List.mem_eraseP_of_neg (by simpa using same)).mpr isNode)
    · refine ⟨[], by rw [removeAction, if_neg found]; rfl, ?_⟩
      intro other member
      left
      obtain ⟨node, isNode, rfl⟩ := List.mem_map.mp member
      refine List.mem_map_of_mem ((List.mem_eraseP_of_neg ?_).mpr isNode)
      intro same
      exact found (List.any_eq_true.mpr ⟨node.2, member, same⟩)

/-! ## Whatever returns has run each action once -/

/-- What the loop over the whole list does if it returns. -/
def LoopRunsEach (fuel : Nat) : Prop :=
  ∀ {promise finished : Dependents}, promise.Completed →
    runActionsFrom fuel promise.mActions.iterator promise = .ok finished →
    promise.Advances finished ∧ finished.mActions.nodes = []

def TryRunRunsEach (fuel : Nat) : Prop :=
  ∀ {promise finished : Dependents} {action : Action}, promise.Completed →
    action.id < promise.nextAction → tryRun fuel action promise = .ok finished →
    promise.Advances finished ∧ (action.suppliersDone = true → action.id ∈ finished.claimed)

def ScriptRunsEach (fuel : Nat) : Prop :=
  ∀ {promise finished : Dependents} {script : Script}, promise.Completed →
    run fuel script promise = .ok finished → promise.Advances finished

theorem tryRunRunsEach_succ (scripts : ScriptRunsEach fuel) : TryRunRunsEach (fuel + 1) := by
  intro promise finished action completed below returned
  by_cases idle : action.suppliersDone = true → action.id ∈ promise.claimed
  · rw [tryRun_idle idle] at returned
    cases returned
    exact ⟨Advances.refl completed, idle⟩
  · obtain ⟨suppliersDone, unclaimed⟩ := Classical.not_imp.mp idle
    rw [tryRun_claims suppliersDone unclaimed] at returned
    have marks := advances_marked completed below unclaimed
    have runs := scripts marks.completed returned
    exact ⟨marks.trans runs, fun _ => runs.claimed _ List.mem_cons_self⟩

theorem loopRunsEach_succ (tries : TryRunRunsEach fuel) (loops : LoopRunsEach fuel) :
    LoopRunsEach (fuel + 1) := by
  intro promise finished completed returned
  cases nodes : promise.mActions.nodes with
  | nil =>
      rw [iterator_nil nodes, runActionsFrom_end] at returned
      cases returned
      exact ⟨Advances.refl completed, nodes⟩
  | cons front behind =>
      obtain ⟨node, action⟩ := front
      rw [iterator_front nodes, runActionsFrom_front nodes] at returned
      obtain ⟨middle, tried, resumed⟩ := peel returned
      have values := values_pop nodes
      have below : action.id < promise.nextAction :=
        completed.registered action (by rw [values]; exact List.mem_cons_self)
      obtain ⟨early, ran⟩ := tries (completed.pop node) below tried
      have distinct := promise.mActions.distinct
      rw [nodes, List.map_cons, List.nodup_cons] at distinct
      have part : middle.mActions.nodes.Sublist behind := by
        rw [← LinkedList.nodes_erase_front nodes]
        exact early.part
      rcases runActionsFrom_resume fuel distinct.2 part with same | ⟨next, isNext, dead⟩
      · rw [same] at resumed
        obtain ⟨late, empty⟩ := loops early.completed resumed
        refine ⟨?_, empty⟩
        have both := early.trans late
        obtain ⟨removed, isRemoved, each⟩ := both.each
        exact
          { both with
            part := by rw [empty]; exact List.nil_sublist _
            each := by
              refine ⟨removed, isRemoved, fun other member => ?_⟩
              rw [values] at member
              rcases List.mem_cons.mp member with rfl | member
              · exact .inr (.inl fun suppliersDone => late.claimed _ (ran suppliersDone))
              · exact each other member }
      · rw [show behind.head? = some next from isNext] at resumed
        cases fuel with
        | zero => cases resumed
        | succ fuel =>
            rw [Option.map_some, runActionsFrom_dead dead] at resumed
            cases resumed

theorem scriptRunsEach_succ (loops : LoopRunsEach fuel)
    (scripts : ∀ less ≤ fuel, ScriptRunsEach less) : ScriptRunsEach (fuel + 1) := by
  intro promise finished script completed returned
  cases script with
  | done =>
      cases returned
      exact Advances.refl completed
  | onComplete next =>
      rw [run_onComplete completed] at returned
      obtain ⟨middle, looped, rest⟩ := peel returned
      have early := (loops completed looped).1
      exact early.trans (scripts fuel (Nat.le_refl _) early.completed rest)
  | removeAction action next =>
      have early := advances_removeAction completed action
      exact early.trans (scripts fuel (Nat.le_refl _) early.completed returned)
  | addAction body next =>
      obtain ⟨less, middle, enough, first, second⟩ := run_addAction_returned completed returned
      have starts := advances_started completed body
      have early := starts.trans (scripts less (by omega) starts.completed first)
      exact early.trans (scripts (less + 2) (by omega) early.completed second)

theorem runsEach_of_fuel (fuel : Nat) :
    LoopRunsEach fuel ∧ TryRunRunsEach fuel ∧ ScriptRunsEach fuel := by
  induction fuel using Nat.strongRecOn with
  | ind fuel ih =>
      cases fuel with
      | zero =>
          refine ⟨?_, ?_, ?_⟩
          · intro _ _ _ returned
            cases returned
          · intro _ _ _ _ _ returned
            cases returned
          · intro _ _ _ _ returned
            cases returned
      | succ fuel =>
          obtain ⟨loops, tries, scripts⟩ := ih fuel (Nat.lt_succ_self fuel)
          refine ⟨loopRunsEach_succ tries loops, tryRunRunsEach_succ scripts, ?_⟩
          exact scriptRunsEach_succ loops fun less within =>
            (ih less (Nat.lt_succ_of_le within)).2.2

theorem advances_of_run {script : Script} (completed : promise.Completed)
    (returned : run fuel script promise = .ok finished) : promise.Advances finished :=
  (runsEach_of_fuel fuel).2.2 completed returned

theorem loop_returned (completed : promise.Completed)
    (returned : runActionsFrom fuel promise.mActions.iterator promise = .ok finished) :
    promise.Advances finished ∧ finished.mActions.nodes = [] :=
  (runsEach_of_fuel fuel).1 completed returned

/-! ## A script that disturbs the loop takes its next node away -/

theorem run_completes {script : Script} (completed : promise.Completed)
    (completes : script.completes = true) (returned : run fuel script promise = .ok finished) :
    finished.mActions.nodes = [] := by
  induction script generalizing promise finished fuel with
  | done => cases completes
  | onComplete next =>
      cases fuel with
      | zero => cases returned
      | succ fuel =>
          rw [run_onComplete completed] at returned
          obtain ⟨middle, looped, rest⟩ := peel returned
          obtain ⟨early, empty⟩ := loop_returned completed looped
          have part := (advances_of_run early.completed rest).part
          rw [empty] at part
          exact List.sublist_nil.mp part
  | removeAction action next ih =>
      cases fuel with
      | zero => cases returned
      | succ fuel => exact ih (advances_removeAction completed action).completed completes returned
  | addAction body next ihBody ihNext =>
      obtain ⟨less, middle, -, first, second⟩ := run_addAction_returned completed returned
      have starts := (advances_started completed body).completed
      have early := advances_of_run starts first
      rcases Bool.or_eq_true_iff.mp completes with inBody | inNext
      · have part := (advances_of_run early.completed second).part
        rw [ihBody starts inBody first] at part
        exact List.sublist_nil.mp part
      · exact ihNext early.completed inNext second

section Front

variable {node : NodeId} {action : Action} {behind : List (NodeId × Action)}

theorem run_removes {script : Script} (completed : promise.Completed)
    (front : promise.mActions.nodes = (node, action) :: behind)
    (removes : action.id ∈ script.removals) (returned : run fuel script promise = .ok finished) :
    node ∉ finished.mActions.nodes.map Prod.fst := by
  induction script generalizing promise finished fuel behind with
  | done => cases removes
  | onComplete next =>
      rw [run_completes completed rfl returned]
      exact List.not_mem_nil
  | removeAction removed next ih =>
      cases fuel with
      | zero => cases returned
      | succ fuel =>
          have early := (advances_removeAction completed removed).completed
          by_cases same : action.id = removed
          · have gone : (promise.removeAction removed).mActions.nodes = behind := by
              rw [removeAction, LinkedList.nodes_remove, front,
                List.eraseP_cons_of_pos (by simpa using same)]
            have distinct := promise.mActions.distinct
            rw [front, List.map_cons, List.nodup_cons] at distinct
            have part := (advances_of_run early returned).part
            rw [gone] at part
            exact fun member => distinct.1 ((part.map Prod.fst).subset member)
          · have front' : (promise.removeAction removed).mActions.nodes =
                (node, action) :: behind.eraseP fun other => other.2.id == removed := by
              rw [removeAction, LinkedList.nodes_remove, front,
                List.eraseP_cons_of_neg (by simpa using same)]
            have later := (List.mem_cons.mp removes).resolve_left same
            exact ih early front' later returned
  | addAction body next ihBody ihNext =>
      obtain ⟨less, middle, -, first, second⟩ := run_addAction_returned completed returned
      have starts := (advances_started completed body).completed
      have early := advances_of_run starts first
      have late := advances_of_run early.completed second
      have front' := (nodes_started completed body).trans front
      by_cases alive : node ∈ middle.mActions.nodes.map Prod.fst
      · rcases List.mem_append.mp removes with inBody | inNext
        · exact absurd alive (ihBody starts front' inBody first)
        · have distinct := promise.mActions.distinct
          have part := early.part
          rw [front] at distinct
          rw [front'] at part
          obtain ⟨kept, still, -⟩ := LinkedList.front_of_sublist distinct part alive
          exact ihNext early.completed still inNext second
      · exact fun member => alive ((late.part.map Prod.fst).subset member)

theorem run_disturbs {script : Script} (completed : promise.Completed)
    (front : promise.mActions.nodes = (node, action) :: behind)
    (disturbs : script.Disturbs promise.mActions.values)
    (returned : run fuel script promise = .ok finished) :
    node ∉ finished.mActions.nodes.map Prod.fst := by
  rw [LinkedList.values, front] at disturbs
  obtain ⟨next, isNext, completes | removes⟩ := disturbs
  · rw [run_completes completed completes returned]
    exact List.not_mem_nil
  · cases isNext
    exact run_removes completed front removes returned

end Front

/-! ## A script that does not disturb the loop returns -/

theorem head?_values : promise.mActions.values.head? =
    promise.mActions.nodes.head?.map Prod.snd :=
  List.head?_map

/-- What is left of the list is what the script does not remove, and no action that
existed before has been claimed. -/
theorem run_quiet {script : Script} (completed : promise.Completed)
    (quiet : ¬script.Disturbs promise.mActions.values) (enough : script.size ≤ fuel) :
    ∃ finished, run fuel script promise = .ok finished ∧
      finished.mActions.values = removeEach script.removals promise.mActions.values ∧
      finished.mActions.nodes.head? = promise.mActions.nodes.head? ∧
      ∀ action < promise.nextAction, action ∈ finished.claimed → action ∈ promise.claimed := by
  induction script generalizing promise fuel with
  | done =>
      obtain ⟨fuel, rfl⟩ := Nat.exists_eq_add_of_lt (Nat.lt_of_lt_of_le Nat.zero_lt_one enough)
      exact ⟨promise, by simp [run], rfl, rfl, fun _ _ member => member⟩
  | onComplete next ih =>
      have empty : promise.mActions.nodes = [] := by
        cases nodes : promise.mActions.nodes with
        | nil => rfl
        | cons front behind =>
            refine absurd ⟨front.2, ?_, .inl rfl⟩ quiet
            rw [head?_values, nodes]
            rfl
      have noValues : promise.mActions.values = [] := by rw [LinkedList.values, empty]; rfl
      have positive := next.size_pos
      obtain ⟨fuel, rfl⟩ := Nat.exists_eq_add_of_le' enough
      rw [Script.size, ← Nat.add_assoc, run_onComplete completed, iterator_nil empty]
      obtain ⟨less, isLess⟩ : ∃ less, fuel + next.size = less + 1 :=
        ⟨fuel + next.size - 1, by omega⟩
      rw [isLess, runActionsFrom_end, ← isLess]
      apply ih completed _ (Nat.le_add_left _ _)
      rintro ⟨first, isFirst, -⟩
      rw [noValues] at isFirst
      cases isFirst
  | removeAction removed next ih =>
      obtain ⟨fuel, rfl⟩ := Nat.exists_eq_add_of_le' enough
      have early := (advances_removeAction completed removed).completed
      have kept : ∀ first ∈ promise.mActions.nodes.head?, (first.2.id == removed) = false := by
        intro first isFirst
        refine beq_false_of_ne fun same => quiet ⟨first.2, ?_, .inr ?_⟩
        · rw [head?_values, isFirst]
          exact rfl
        · rw [same]
          exact List.mem_cons_self
      have head := head?_eraseP kept
      have values : (promise.removeAction removed).mActions.values =
          promise.mActions.values.eraseP fun other => other.id == removed := by
        rw [LinkedList.values, LinkedList.values, List.eraseP_map]
        rfl
      have stillQuiet : ¬next.Disturbs (promise.removeAction removed).mActions.values := by
        rintro ⟨first, isFirst, disturbs⟩
        rw [head?_values, removeAction, LinkedList.nodes_remove, head, ← head?_values] at isFirst
        exact quiet ⟨first, isFirst, disturbs.imp_right (List.mem_cons_of_mem _)⟩
      obtain ⟨finished, returned, values', head', unclaimed⟩ :=
        ih early stillQuiet (Nat.le_add_left next.size fuel)
      refine ⟨finished, returned, ?_, head'.trans head, unclaimed⟩
      rw [values', values]
      rfl
  | addAction body next ihBody ihNext =>
      obtain ⟨fuel, rfl⟩ := Nat.exists_eq_add_of_le' enough
      have starts := advances_started completed body
      have nodes := nodes_started completed body
      have values : (promise.started body).mActions.values = promise.mActions.values := by
        rw [LinkedList.values, nodes, LinkedList.values]
      have bodyQuiet : ¬body.Disturbs (promise.started body).mActions.values := by
        rw [values]
        rintro ⟨first, isFirst, disturbs⟩
        exact quiet ⟨first, isFirst, disturbs.imp (by simp [Script.completes, ·])
          (List.mem_append_left _)⟩
      obtain ⟨middle, first, values', head', unclaimed'⟩ :=
        ihBody starts.completed bodyQuiet
          (show body.size ≤ fuel + body.size + next.size by omega)
      have early := (advances_of_run starts.completed first).completed
      have nextQuiet : ¬next.Disturbs middle.mActions.values := by
        rintro ⟨first, isFirst, disturbs⟩
        rw [head?_values, head', nodes, ← head?_values] at isFirst
        exact quiet ⟨first, isFirst, disturbs.imp (by simp [Script.completes, ·])
          (List.mem_append_right _)⟩
      obtain ⟨finished, second, values'', head'', unclaimed''⟩ :=
        ihNext early nextQuiet
          (show next.size ≤ fuel + body.size + next.size + 2 by omega)
      refine ⟨finished, ?_, ?_, ?_, ?_⟩
      · rw [Script.size, ← Nat.add_assoc, ← Nat.add_assoc, run_addAction completed, first]
        exact second
      · rw [values'', values', values, Script.removals, removeEach_append]
      · rw [head'', head', nodes]
      · intro action below member
        have grows := (advances_of_run starts.completed first).grows
        have atStart := unclaimed' action (Nat.lt_succ_of_lt below)
          (unclaimed'' action (Nat.lt_of_lt_of_le (Nat.lt_succ_of_lt below) grows) member)
        exact (List.mem_cons.mp atStart).resolve_left (Nat.ne_of_lt below)

/-! ## When the loop returns -/

theorem weight_mono (part : finished.mActions.values.Sublist promise.mActions.values) :
    finished.weight ≤ promise.weight := by
  refine Nat.succ_le_succ ((part.map _).sum_le_sum ?_)
  exact fun _ _ => Nat.zero_le _

section Front

variable {node : NodeId} {action : Action} {behind : List (NodeId × Action)}

theorem weight_front (front : promise.mActions.nodes = (node, action) :: behind) :
    promise.weight = (promise.pop node).weight + action.script.size + 2 := by
  rw [weight, values_pop front, List.map_cons, List.sum_cons, weight]
  omega

/-- The loop stops when its next node is gone. -/
theorem resume_disturbed {script : Script} (completed : promise.Completed)
    (disturbs : script.Disturbs promise.mActions.values)
    (returned : run fuel script promise = .ok middle) (more : Nat) :
    runActionsFrom (more + 1) promise.mActions.iterator middle = .error .deadNode := by
  cases nodes : promise.mActions.nodes with
  | nil =>
      obtain ⟨first, isFirst, -⟩ := disturbs
      rw [head?_values, nodes] at isFirst
      cases isFirst
  | cons front behind =>
      rw [iterator_front nodes]
      exact runActionsFrom_dead (run_disturbs completed nodes disturbs returned)

end Front

theorem loop_returns_iff (completed : promise.Completed) (enough : promise.weight ≤ fuel) :
    (∃ finished, runActionsFrom fuel promise.mActions.iterator promise = .ok finished) ↔
      ¬Disturbed promise.claimed promise.mActions.values := by
  induction fuel generalizing promise with
  | zero => exact absurd enough (Nat.not_succ_le_zero _)
  | succ fuel ih =>
      cases nodes : promise.mActions.nodes with
      | nil =>
          rw [iterator_nil nodes, LinkedList.values, nodes]
          exact ⟨fun _ => not_disturbed_nil _, fun _ => ⟨promise, runActionsFrom_end⟩⟩
      | cons front behind =>
          obtain ⟨node, action⟩ := front
          have weights := weight_front nodes
          have values := values_pop nodes
          have popped := completed.pop node
          have goesOn : (promise.pop node).mActions.iterator =
              ⟨false, behind.head?.map Prod.fst⟩ := by
            rw [LinkedList.iterator, pop, LinkedList.nodes_erase_front nodes]
          obtain ⟨less, rfl⟩ : ∃ less, fuel = less + 1 := ⟨fuel - 1, by omega⟩
          have claims : promise.claimed = (promise.pop node).claimed := rfl
          rw [iterator_front nodes, runActionsFrom_front nodes, ← goesOn, values, claims]
          by_cases idle : action.suppliersDone = true → action.id ∈ (promise.pop node).claimed
          · rw [disturbed_idle idle, ← ih popped (by omega), tryRun_idle idle]
            rfl
          · obtain ⟨suppliersDone, unclaimed⟩ := Classical.not_imp.mp idle
            rw [tryRun_claims suppliersDone unclaimed]
            have marks := advances_marked popped
              (completed.registered action (by rw [values]; exact List.mem_cons_self)) unclaimed
            by_cases disturbs : action.script.Disturbs (promise.pop node).mActions.values
            · refine iff_of_false ?_ (not_not_intro (.here suppliersDone unclaimed disturbs))
              rintro ⟨finished, returned⟩
              obtain ⟨middle, ran, resumed⟩ := peel returned
              rw [show (promise.pop node).mActions = ((promise.pop node).marked action.id).mActions
                from rfl, resume_disturbed marks.completed disturbs ran] at resumed
              cases resumed
            · obtain ⟨middle, ran, values', head, kept⟩ :=
                run_quiet marks.completed disturbs (show action.script.size ≤ less by omega)
              have early := advances_of_run marks.completed ran
              have lighter : middle.weight ≤ (promise.pop node).weight :=
                weight_mono (early.part.map Prod.snd)
              have same : (promise.pop node).mActions.iterator = middle.mActions.iterator := by
                rw [LinkedList.iterator, LinkedList.iterator, head]
                rfl
              rw [disturbed_runs suppliersDone unclaimed disturbs, ran, same]
              refine (ih early.completed (by omega)).trans (not_congr ?_)
              rw [values']
              have agree : ∀ other ∈ removeEach action.script.removals
                    (promise.pop node).mActions.values,
                  other.id ∈ middle.claimed ↔ other.id ∈ action.id :: promise.claimed := by
                intro other member
                have below := popped.registered other ((removeEach_sublist _ _).subset member)
                exact ⟨kept other.id below, early.claimed other.id⟩
              exact ⟨fun disturbed => disturbed.congr agree,
                fun disturbed => disturbed.congr fun other member => (agree other member).symm⟩

/-! ## The weight is enough fuel -/

/-- The loop over the whole list does not run out of fuel. -/
def LoopHasFuel (fuel : Nat) : Prop :=
  ∀ {promise : Dependents}, promise.Completed → promise.weight ≤ fuel →
    runActionsFrom fuel promise.mActions.iterator promise ≠ .error .outOfFuel

def ScriptHasFuel (fuel : Nat) : Prop :=
  ∀ {promise : Dependents} {script : Script}, promise.Completed →
    script.size + promise.weight ≤ fuel → run fuel script promise ≠ .error .outOfFuel

private theorem bind_ne_outOfFuel {α β : Type} {first : Except Fault α} {rest : α → Except Fault β}
    (starts : first ≠ .error .outOfFuel)
    (continues : ∀ value, first = .ok value → rest value ≠ .error .outOfFuel) :
    first >>= rest ≠ .error .outOfFuel := by
  cases first with
  | error fault =>
      intro same
      cases same
      exact starts rfl
  | ok value => exact continues value rfl

theorem loopHasFuel_succ (scripts : ∀ less ≤ fuel, ScriptHasFuel less)
    (loops : LoopHasFuel fuel) : LoopHasFuel (fuel + 1) := by
  intro promise completed enough
  cases nodes : promise.mActions.nodes with
  | nil =>
      rw [iterator_nil nodes, runActionsFrom_end]
      rintro ⟨⟩
  | cons front behind =>
      obtain ⟨node, action⟩ := front
      have weights := weight_front nodes
      have popped := completed.pop node
      have erased := LinkedList.nodes_erase_front nodes
      have distinct := (promise.pop node).mActions.distinct
      rw [pop, erased] at distinct
      have below : action.id < promise.nextAction :=
        completed.registered action (by rw [values_pop nodes]; exact List.mem_cons_self)
      obtain ⟨less, rfl⟩ : ∃ less, fuel = less + 1 := ⟨fuel - 1, by omega⟩
      rw [iterator_front nodes, runActionsFrom_front nodes]
      refine bind_ne_outOfFuel ?_ ?_
      · by_cases idle : action.suppliersDone = true → action.id ∈ (promise.pop node).claimed
        · rw [tryRun_idle idle]
          rintro ⟨⟩
        · obtain ⟨suppliersDone, unclaimed⟩ := Classical.not_imp.mp idle
          rw [tryRun_claims suppliersDone unclaimed]
          have marks := (advances_marked popped below unclaimed).completed
          exact scripts less (Nat.le_succ less) marks
            (show action.script.size + (promise.pop node).weight ≤ less by omega)
      · intro middle tried
        have early := ((runsEach_of_fuel (less + 1)).2.1 popped below tried).1
        have part := early.part
        rw [pop, erased] at part
        have lighter : middle.weight ≤ (promise.pop node).weight :=
          weight_mono (early.part.map Prod.snd)
        rcases runActionsFrom_resume (less + 1) distinct part with same | ⟨next, isNext, dead⟩
        · rw [same]
          exact loops early.completed (by omega)
        · rw [show behind.head? = some next from isNext, Option.map_some, runActionsFrom_dead dead]
          rintro ⟨⟩

theorem scriptHasFuel_succ (loops : LoopHasFuel fuel)
    (scripts : ∀ less ≤ fuel, ScriptHasFuel less) : ScriptHasFuel (fuel + 1) := by
  intro promise script completed enough
  cases script with
  | done => rintro ⟨⟩
  | onComplete next =>
      rw [Script.size] at enough
      rw [run_onComplete completed]
      refine bind_ne_outOfFuel (loops completed (by omega)) fun middle looped => ?_
      have early := (loop_returned completed looped).1
      have lighter := weight_mono (early.part.map Prod.snd)
      exact scripts fuel (Nat.le_refl _) early.completed (by omega)
  | removeAction action next =>
      rw [Script.size] at enough
      have early := advances_removeAction completed action
      have lighter := weight_mono (early.part.map Prod.snd)
      exact scripts fuel (Nat.le_refl _) early.completed (by omega)
  | addAction body next =>
      rw [Script.size] at enough
      obtain ⟨less, rfl⟩ : ∃ less, fuel = less + 2 := ⟨fuel - 2, by omega⟩
      have starts := advances_started completed body
      have lighter := weight_mono (starts.part.map Prod.snd)
      rw [run_addAction completed]
      refine bind_ne_outOfFuel (scripts less (by omega) starts.completed (by omega)) ?_
      intro middle first
      have early := advances_of_run starts.completed first
      have lighter' := weight_mono (early.part.map Prod.snd)
      exact scripts (less + 2) (Nat.le_refl _) early.completed (by omega)

theorem hasFuel (fuel : Nat) : LoopHasFuel fuel ∧ ScriptHasFuel fuel := by
  induction fuel using Nat.strongRecOn with
  | ind fuel ih =>
      cases fuel with
      | zero =>
          refine ⟨fun _ enough => absurd enough (Nat.not_succ_le_zero _), ?_⟩
          intro promise script _ enough
          exact absurd enough (by rw [weight]; omega)
      | succ fuel =>
          have scripts : ∀ less ≤ fuel, ScriptHasFuel less :=
            fun less within => (ih less (Nat.lt_succ_of_le within)).2
          have loops : LoopHasFuel fuel := (ih fuel (Nat.lt_succ_self fuel)).1
          exact ⟨loopHasFuel_succ scripts loops, scriptHasFuel_succ loops scripts⟩

/-! ## The actions of a promise that is completed -/

theorem completed_setResult (wellFormed : promise.WellFormed) : promise.setResult.Completed := by
  rw [setResult]
  cases isDone : promise.mIsDone with
  | false => exact { wellFormed with isDone := rfl }
  | true => exact { wellFormed with isDone := isDone }

theorem setResult_kept : promise.setResult.mActions = promise.mActions ∧
    promise.setResult.claimed = promise.claimed ∧
    promise.setResult.nextAction = promise.nextAction ∧
    promise.setResult.removed = promise.removed := by
  rw [setResult]
  split <;> exact ⟨rfl, rfl, rfl, rfl⟩

/-- What returns has run each action once. -/
theorem finish_runsEach (wellFormed : promise.WellFormed)
    (returned : promise.finish fuel = .ok finished) : promise.RunsEach finished := by
  obtain ⟨advances, empty⟩ := loop_returned (completed_setResult wellFormed) returned
  obtain ⟨actions, claims, next, removals⟩ := promise.setResult_kept
  obtain ⟨removed, isRemoved, each⟩ := advances.each
  rw [actions, removals] at *
  have noValues : finished.mActions.values = [] := by rw [LinkedList.values, empty]; rfl
  exact
    { isDone := advances.completed.isDone
      empty := noValues
      once := advances.completed.once
      each := by
        refine ⟨removed, isRemoved, fun action member suppliersDone => ?_⟩
        rcases each action member with stays | run | gone
        · rw [noValues] at stays
          cases stays
        · exact .inl (run suppliersDone)
        · exact .inr gone
      registered := by
        intro action above below
        exact advances.created action (by rwa [next]) below }

/-- Completing a promise runs each of its actions once and uses no node that has been
erased, exactly when no action disturbs the loop that runs it. -/
theorem finish_runsEach_iff (wellFormed : promise.WellFormed) (enough : promise.weight ≤ fuel) :
    (∃ finished, promise.finish fuel = .ok finished ∧ promise.RunsEach finished) ↔
      ¬Disturbed promise.claimed promise.mActions.values := by
  obtain ⟨actions, claims, -, -⟩ := promise.setResult_kept
  have returns := loop_returns_iff (completed_setResult wellFormed)
    (show promise.setResult.weight ≤ fuel by rw [weight, actions]; exact enough)
  rw [claims, actions] at returns
  rw [← returns]
  constructor
  · rintro ⟨finished, returned, -⟩
    refine ⟨finished, ?_⟩
    rw [← returned, finish, runActions, actions]
  · rintro ⟨finished, returned⟩
    rw [← actions] at returned
    exact ⟨finished, returned, finish_runsEach wellFormed returned⟩

/-- Otherwise the loop goes on at an erased node. -/
theorem finish_deadNode (wellFormed : promise.WellFormed) (enough : promise.weight ≤ fuel)
    (disturbed : Disturbed promise.claimed promise.mActions.values) :
    promise.finish fuel = .error .deadNode := by
  obtain ⟨actions, -⟩ := promise.setResult_kept
  have hasFuel := (hasFuel fuel).1 (completed_setResult wellFormed)
    (by rw [weight, actions]; exact enough)
  cases outcome : promise.finish fuel with
  | ok finished =>
      have fine := (finish_runsEach_iff wellFormed enough).mp
        ⟨finished, outcome, finish_runsEach wellFormed outcome⟩
      exact absurd disturbed fine
  | error fault =>
      cases fault with
      | deadNode => rfl
      | outOfFuel => exact absurd outcome hasFuel

end Dependents

/-! The consumer of an `anyOf` has two continuations that are executed synchronously. -/

/-- A promise that is not done, with the given actions. -/
def pending (scripts : List Script) : Dependents where
  mIsDone := false
  mActions := scripts.zipIdx.foldl (fun actions entry => actions.add ⟨entry.2, true, entry.1⟩) .empty
  claimed := []
  nextAction := scripts.length
  removed := []

/-- A continuation that completes another member: its `AnyOfAction` sets the result of
the same consumer again and calls `onComplete` on it. -/
def completesMember : Script := .onComplete .done

/-- When the continuation that completes another member is the last one, all goes
well. -/
theorem Dependents.lastCompletesMember_runsEach :
    ∃ finished, (pending [.done, completesMember]).finish 20 = .ok finished ∧
      (pending [.done, completesMember]).RunsEach finished := by
  refine (finish_runsEach_iff ⟨by decide, by decide, by decide⟩ (by decide)).mpr ?_
  have quiet : ¬Script.done.Disturbs [⟨1, true, completesMember⟩] := by
    rintro ⟨next, -, completes | removes⟩
    · cases completes
    · cases removes
  intro disturbed
  exact not_disturbed_singleton _ _ ((disturbed_runs rfl List.not_mem_nil quiet).mp disturbed)

/-- When it is the first one, the outer loop goes on at the node of the second one, which
the inner loop has erased. -/
theorem Dependents.firstCompletesMember_deadNode :
    (pending [completesMember, .done]).finish 20 = .error .deadNode ∧
      ¬∃ finished, (pending [completesMember, .done]).finish 20 = .ok finished ∧
        (pending [completesMember, .done]).RunsEach finished := by
  have dead : (pending [completesMember, .done]).finish 20 = .error .deadNode := by rfl
  refine ⟨dead, ?_⟩
  rintro ⟨finished, returned, -⟩
  rw [dead] at returned
  cases returned

end Mindroid
