import Mindroid.Util.Concurrent.AnyOf
import Mindroid.Util.Concurrent.ChainFailure

/-!
# `Promise::allOf`

`andTree` halves the range of the promises until one or two of them are left.  Every node
of the tree has a consumer and an action that the call creates, so nobody else completes
the consumer.
-/

set_option autoImplicit false

namespace Mindroid

open Foundation

/-! ## The tree -/

namespace AndTree

/-- `(start + end) / 2`. -/
def mid (start stop : Nat) : Nat :=
  (start + stop) / 2

theorem mid_lt {start stop : Nat} (ordered : start < stop) :
    start ≤ mid start stop ∧ mid start stop < stop := by
  rw [mid]
  omega

theorem mid_self (start : Nat) : mid start start = start := by
  rw [mid]
  omega

theorem mid_lt_of_ne {start stop : Nat} (ordered : start ≤ stop) (other : start ≠ mid start stop) :
    start < mid start stop ∧ mid start stop < stop := by
  rcases Nat.eq_or_lt_of_le ordered with rfl | smaller
  · exact absurd (mid_self start).symm other
  · exact ⟨Nat.lt_of_le_of_ne (mid_lt smaller).1 other, (mid_lt smaller).2⟩

theorem mid_lt_of_right {start stop : Nat} (ordered : start ≤ stop) (several : start ≠ stop)
    (other : stop ≠ mid start stop + 1) : mid start stop + 1 < stop ∧ start ≤ mid start stop := by
  have halves := mid_lt (Nat.lt_of_le_of_ne ordered several)
  exact ⟨Nat.lt_of_le_of_ne halves.2 (Ne.symm other), halves.1⟩

/-- The ranges for which `andTree` is called, in the order in which the calls return. -/
def andTree (start stop : Nat) (ordered : start ≤ stop) : List (Nat × Nat) :=
  (if left : start = mid start stop then []
    else andTree start (mid start stop) (Nat.le_of_lt (mid_lt_of_ne ordered left).1)) ++
  (if single : start = stop then []
    else if right : stop = mid start stop + 1 then []
    else andTree (mid start stop + 1) stop (Nat.le_of_lt (mid_lt_of_right ordered single right).1)) ++
  [(start, stop)]
termination_by stop - start
decreasing_by
  · have smaller := mid_lt_of_ne ordered left
    omega
  · have smaller := mid_lt_of_right ordered single right
    omega

section Suppliers

variable {P : Type} (first : P) (others : List P) (consumer : Nat × Nat → P)

/-- `promises[index]`, for a list of promises that is not empty. -/
def promiseAt (index : Nat) : P :=
  (first :: others).getD index first

def supplier1 (start stop : Nat) : P :=
  if start = mid start stop then promiseAt first others start
  else consumer (start, mid start stop)

def supplier2 (start stop : Nat) : P :=
  if start = stop then supplier1 first others consumer start stop
  else if stop = mid start stop + 1 then promiseAt first others stop
  else consumer (mid start stop + 1, stop)

end Suppliers

/-! ## The promises below a node -/

section Nodes

variable {start stop : Nat} {ordered : start ≤ stop}

theorem root_mem : (start, stop) ∈ andTree start stop ordered := by
  rw [andTree]
  exact List.mem_append_right _ List.mem_cons_self

theorem left_subset (left : start ≠ mid start stop) :
    andTree start (mid start stop) (Nat.le_of_lt (mid_lt_of_ne ordered left).1) ⊆
      andTree start stop ordered := by
  intro node member
  rw [andTree, dif_neg left]
  exact List.mem_append_left _ (List.mem_append_left _ member)

theorem right_subset (several : start ≠ stop) (right : stop ≠ mid start stop + 1) :
    andTree (mid start stop + 1) stop
        (Nat.le_of_lt (mid_lt_of_right ordered several right).1) ⊆
      andTree start stop ordered := by
  intro node member
  rw [andTree, dif_neg several, dif_neg right]
  exact List.mem_append_left _ (List.mem_append_right _ member)

end Nodes

section Ranges

variable {P : Type}

/-- The elements from one index to another one. -/
def range (list : List P) (start stop : Nat) : List P :=
  (list.drop start).take (stop + 1 - start)

theorem range_split (list : List P) {start middle stop : Nat} (before : start ≤ middle)
    (behind : middle < stop) :
    range list start stop = range list start middle ++ range list (middle + 1) stop := by
  have count : stop + 1 - start = (middle + 1 - start) + (stop + 1 - (middle + 1)) := by omega
  have skipped : start + (middle + 1 - start) = middle + 1 := by omega
  rw [range, count, List.take_add, List.drop_drop, skipped]
  rfl

variable {first : P} {others : List P}

theorem promiseAt_eq {index : Nat} (within : index < (first :: others).length) :
    promiseAt first others index = (first :: others)[index] := by
  rw [promiseAt, List.getD_eq_getElem?_getD, List.getElem?_eq_getElem within, Option.getD_some]

theorem range_self {index : Nat} (within : index < (first :: others).length) :
    range (first :: others) index index = [promiseAt first others index] := by
  rw [range, List.drop_eq_getElem_cons within, Nat.add_sub_cancel_left, List.take_succ_cons,
    List.take_zero, promiseAt_eq within]

/-- The nodes of the tree that `allOf` builds. -/
def nodes (others : List P) : List (Nat × Nat) :=
  andTree 0 others.length (Nat.zero_le _)

theorem nodes_pair (second : P) : nodes [second] = [(0, 1)] := by
  rw [nodes, andTree]
  simp [mid]

/-- What holds of the promises, and of a node if it holds of its suppliers, holds of the
tree. -/
theorem tree_induction (first : P) (others : List P) (consumer : Nat × Nat → P)
    {motive : P → List P → Prop}
    (leaf : ∀ promise ∈ first :: others, motive promise [promise])
    (inner : ∀ start stop, (start, stop) ∈ nodes others → ∀ left right,
      motive (supplier1 first others consumer start stop) left →
        motive (supplier2 first others consumer start stop) right →
          motive (consumer (start, stop)) (left ++ right))
    (single : ∀ promise leaf, motive promise [leaf, leaf] → motive promise [leaf]) :
    motive (consumer (0, others.length)) (first :: others) := by
  have member {index : Nat} (within : index < (first :: others).length) :
      motive (promiseAt first others index) (range (first :: others) index index) := by
    rw [range_self within]
    apply leaf
    rw [promiseAt_eq within]
    exact List.getElem_mem within
  have below : ∀ size start stop (ordered : start ≤ stop), stop - start = size →
      stop < (first :: others).length →
      andTree start stop ordered ⊆ nodes others →
      motive (consumer (start, stop)) (range (first :: others) start stop) := by
    intro size
    induction size using Nat.strongRecOn with
    | ind size ih =>
        intro start stop ordered isSize within subset
        have isNode := subset root_mem
        rcases Nat.eq_or_lt_of_le ordered with rfl | smaller
        · have both := inner start start isNode
            (range (first :: others) start start) (range (first :: others) start start)
          rw [supplier2, if_pos rfl, supplier1, if_pos (mid_self start).symm] at both
          have doubled := both (member within) (member within)
          rw [range_self within] at doubled ⊢
          exact single _ _ doubled
        · have halves := mid_lt smaller
          have several := Nat.ne_of_lt smaller
          rw [range_split (first :: others) halves.1 halves.2]
          apply inner start stop isNode
          · rw [supplier1]
            split
            case isTrue left =>
              rw [← left]
              exact member (Nat.lt_of_le_of_lt ordered within)
            case isFalse left =>
              have shorter := mid_lt_of_ne ordered left
              refine ih _ ?_ _ _ (Nat.le_of_lt shorter.1) rfl (Nat.lt_trans shorter.2 within)
                (List.Subset.trans (left_subset left) subset)
              omega
          · rw [supplier2, if_neg several]
            split
            case isTrue right =>
              rw [← right]
              exact member within
            case isFalse right =>
              have shorter := mid_lt_of_right ordered several right
              refine ih _ ?_ _ _ (Nat.le_of_lt shorter.1) rfl within
                (List.Subset.trans (right_subset several right) subset)
              omega
  have whole := below _ 0 others.length (Nat.zero_le _) rfl (Nat.lt_succ_self _)
    (List.Subset.refl _)
  have all : range (first :: others) 0 others.length = first :: others :=
    List.take_of_length_le (Nat.le_refl _)
  rwa [all] at whole

end Ranges

end AndTree

/-! ## What the tree computes -/

/-- The exception of an outcome. -/
def Outcome.exception {V : Type} : Outcome V → Option Exception
  | .ok _ => none
  | .error exception => some exception

theorem Promise.exception_outcome {A V : Type} (promise : Promise A V) :
    Outcome.exception promise.outcome = promise.mException := by
  rw [Promise.outcome]
  cases promise.mException with
  | none => rfl
  | some exception => rfl

/-- An exception is wrapped once. -/
theorem map_toCompletionException_twice (exception : Option Exception) :
    (exception.map toCompletionException).map toCompletionException =
      exception.map toCompletionException := by
  rw [Option.map_map]
  congr 1
  funext exception
  exact toCompletionException_of_isCompletion (isCompletion_toCompletionException exception)

theorem RelayAction.exception_run {V : Type} (outcome : Outcome V) :
    Outcome.exception (RelayAction.run outcome) =
      (Outcome.exception outcome).map toCompletionException := by
  cases outcome with
  | ok result => rfl
  | error exception => rfl

/-- The first supplier that has failed is the one whose exception is relayed. -/
theorem BiRelayAction.exception_run {V : Type} [Inhabited V] (first second : Outcome V) :
    Outcome.exception (BiRelayAction.run first second) =
      ((Outcome.exception first).or (Outcome.exception second)).map toCompletionException := by
  cases first with
  | error exception => rfl
  | ok result =>
      cases second with
      | error exception => rfl
      | ok result => rfl

namespace Promises

variable {P A V : Type} (promises : Promises P A V)

/-- `isCompletedExceptionally`. -/
def Failed (promise : P) : Prop :=
  (promises.promise promise).mException ≠ none

/-- The promise was completed normally. -/
def Succeeded (promise : P) : Prop :=
  promises.Done promise ∧ (promises.promise promise).mException = none

/-- The exception of the first of some promises that has failed. -/
def firstException (members : List P) : Option Exception :=
  members.findSome? fun member => (promises.promise member).mException

/-- The promise waits for the members, and then has the exception of the first one that has
failed, up to its wrapping. -/
def Gathers (promise : P) (members : List P) : Prop :=
  promises.Done promise → (∀ member ∈ members, promises.Done member) ∧
    (promises.promise promise).mException.map toCompletionException =
      (promises.firstException members).map toCompletionException

theorem firstException_append (left right : List P) :
    promises.firstException (left ++ right) =
      (promises.firstException left).or (promises.firstException right) :=
  List.findSome?_append

theorem firstException_single (member : P) :
    promises.firstException [member] = (promises.promise member).mException := by
  rw [firstException, List.findSome?_cons]
  cases (promises.promise member).mException with
  | none => rfl
  | some exception => rfl

theorem firstException_ne_none {members : List P} :
    promises.firstException members ≠ none ↔ ∃ member ∈ members, promises.Failed member := by
  rw [Ne, firstException, List.findSome?_eq_none_iff]
  push Not
  rfl

end Promises

namespace PromiseMachine

variable {P A V : Type} [Inhabited V]

/-- No thread is inside a call that completes a promise. -/
def Quiet (state : State P A V) : Prop :=
  ∀ promise, ¬state.Pending (completes promise)

/-- The calls that register the actions have returned. -/
def Returned (state : State P A V) (actions : List A) : Prop :=
  ∀ action ∈ actions, state.shared.combined action = true ∧ ¬state.Pending (registers action)

/-- What `allOf` creates for the promises. -/
structure AllOf (classOf : A → ActionClass P A V) (first : P) (others : List P)
    (action : Nat × Nat → A) (consumer : Nat × Nat → P) : Prop where
  created : ∀ start stop, (start, stop) ∈ AndTree.nodes others →
    classOf (action (start, stop)) =
      .biRelay (AndTree.supplier1 first others consumer start stop)
        (AndTree.supplier2 first others consumer start stop) (consumer (start, stop))
  alone : ∀ node ∈ AndTree.nodes others, ∀ other, (classOf other).consumer = consumer node →
    other = action node
  calls : ∀ promises action outcome, ∀ call ∈ (classOf action).calls outcome,
    CallAllowed (fun _ promise _ => ∀ node ∈ AndTree.nodes others, promise ≠ consumer node)
      promises call

namespace AllOf

open AndTree

variable {classOf : A → ActionClass P A V} {first : P} {others : List P}
  {action : Nat × Nat → A} {consumer : Nat × Nat → P}

omit [Inhabited V] in
theorem discipline (allOf : AllOf classOf first others action consumer) :
    Discipline classOf fun _ promise _ => ∀ node ∈ nodes others, promise ≠ consumer node where
  stable _ _ _ different := different
  calls promises action _ := allOf.calls promises action _

variable [DecidableEq P] [DecidableEq A] {start state : State P A V}

omit [DecidableEq P] [DecidableEq A] in
/-- The consumer of a node has its outcome from the suppliers. -/
theorem produced (allOf : AllOf classOf first others action consumer)
    (disciplined : Disciplined classOf
      (fun _ promise _ => ∀ node ∈ nodes others, promise ≠ consumer node) state)
    {begin stop : Nat} (isNode : (begin, stop) ∈ nodes others)
    (done : state.shared.Done (consumer (begin, stop))) :
    state.shared.Done (supplier1 first others consumer begin stop) ∧
      state.shared.Done (supplier2 first others consumer begin stop) ∧
      (state.shared.promise (consumer (begin, stop))).mException =
        ((state.shared.promise (supplier1 first others consumer begin stop)).mException.or
          (state.shared.promise (supplier2 first others consumer begin stop)).mException).map
            toCompletionException := by
  obtain ⟨other, isConsumer, allDone, gives⟩ :=
    disciplined.produced done fun different => different _ isNode rfl
  obtain rfl := allOf.alone _ isNode other isConsumer
  have type := allOf.created begin stop isNode
  have firstDone := allDone _ (classOf (action (begin, stop))).supplier_mem
  have secondDone := allDone _ (classOf (action (begin, stop))).supplier2_mem
  rw [type] at gives firstDone secondDone
  have relayed := congrArg Outcome.exception gives
  rw [BiRelayAction.exception_run, Promise.exception_outcome, Promise.exception_outcome,
    Promise.exception_outcome] at relayed
  exact ⟨firstDone, secondDone, relayed⟩

omit [DecidableEq P] [DecidableEq A] in
/-- The promise that `allOf` returns is done only if all promises are, and has the exception
of the first one that has failed. -/
theorem gathered (allOf : AllOf classOf first others action consumer)
    (disciplined : Disciplined classOf
      (fun _ promise _ => ∀ node ∈ nodes others, promise ≠ consumer node) state)
    (done : state.shared.Done (consumer (0, others.length))) :
    (∀ member ∈ first :: others, state.shared.Done member) ∧
      (state.shared.promise (consumer (0, others.length))).mException =
        (state.shared.firstException (first :: others)).map toCompletionException := by
  have wrapped : ((state.shared.promise (consumer (0, others.length))).mException).map
      toCompletionException = (state.shared.promise (consumer (0, others.length))).mException := by
    rw [(allOf.produced disciplined root_mem done).2.2, map_toCompletionException_twice]
  have gathers : state.shared.Gathers (consumer (0, others.length)) (first :: others) := by
    apply tree_induction first others consumer
    · intro promise _ promiseDone
      refine ⟨fun member isMember => ?_, ?_⟩
      · rwa [List.mem_singleton.mp isMember]
      · rw [Promises.firstException_single]
    · intro begin stop isNode left right gathersLeft gathersRight nodeDone
      rcases allOf.produced disciplined isNode nodeDone with ⟨firstDone, secondDone, relayed⟩
      rcases gathersLeft firstDone with ⟨allLeft, exceptionLeft⟩
      rcases gathersRight secondDone with ⟨allRight, exceptionRight⟩
      constructor
      · intro member isMember
        exact (List.mem_append.mp isMember).elim (allLeft member) (allRight member)
      · rw [relayed, map_toCompletionException_twice, Promises.firstException_append,
          Option.map_or, Option.map_or, exceptionLeft, exceptionRight]
    · intro promise leaf gathers promiseDone
      rcases gathers promiseDone with ⟨allDone, exception⟩
      constructor
      · intro member isMember
        exact allDone member (List.mem_cons_of_mem _ isMember)
      · have doubled := Promises.firstException_append state.shared [leaf] [leaf]
        rw [Option.or_self] at doubled
        rw [exception, ← doubled]
        rfl
  rw [← wrapped]
  exact gathers done

/-- It is done once all promises are. -/
theorem delivered (allOf : AllOf classOf first others action consumer)
    (disciplined : Disciplined classOf
      (fun _ promise _ => ∀ node ∈ nodes others, promise ≠ consumer node) state)
    (initial : Initial start) (reached : Reachable (· = start) (machine classOf).Step state)
    (quiet : Quiet state) (returned : Returned state ((nodes others).map action))
    (done : ∀ member ∈ first :: others, state.shared.Done member) :
    state.shared.Done (consumer (0, others.length)) := by
  have delivers : (∀ member ∈ first :: others, state.shared.Done member) →
      state.shared.Done (consumer (0, others.length)) := by
    apply tree_induction first others consumer
      (motive := fun promise members => (∀ member ∈ members, state.shared.Done member) →
        state.shared.Done promise)
    · intro promise _ all
      exact all promise List.mem_cons_self
    · intro begin stop isNode left right ofLeft ofRight all
      have type := allOf.created begin stop isNode
      have firstDone := ofLeft fun member isMember => all member (List.mem_append_left _ isMember)
      have secondDone :=
        ofRight fun member isMember => all member (List.mem_append_right _ isMember)
      have allDone : state.shared.AllDone classOf (action (begin, stop)) := by
        apply allDone_of_both
        · rwa [type]
        · rwa [type]
      have consumerDone := disciplined.quiet_delivers initial reached (by rw [type]; rfl)
        (returned _ (List.mem_map_of_mem isNode)) allDone (fun supplier _ => quiet supplier)
        (by rw [type]; rfl)
      rwa [type] at consumerDone
    · intro promise leaf ofBoth all
      apply ofBoth
      intro member isMember
      rcases List.mem_cons.mp isMember with rfl | later
      · exact all _ List.mem_cons_self
      · exact all member later
  exact delivers done

end AllOf

end PromiseMachine

end Mindroid
