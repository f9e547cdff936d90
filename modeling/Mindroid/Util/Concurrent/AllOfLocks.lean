import Mindroid.Util.Concurrent.AllOf

/-!
# The locks of the members of `allOf`

A thread that completes a member keeps the lock of the member while it runs the actions of the
tree, which ask for the locks of both suppliers.  Two threads that complete the two leaves of
one node may wait for each other.
-/

set_option autoImplicit false

namespace Mindroid

open Foundation

namespace PromiseMachine

variable {P A V : Type}

/-! ## Waiting threads -/

/-- The thread is inside a call that completes the promise. -/
def Completing (state : State P A V) (thread : Nat) (promise : P) : Prop :=
  ∃ number, .returnTrue number promise ∈ state.stack thread

/-- The next instruction of the thread acquires the lock of the promise. -/
def Wants (classOf : A → ActionClass P A V) (state : State P A V) (thread : Nat) (promise : P) :
    Prop :=
  ∃ instr rest, state.stack thread = instr :: rest ∧ acquires classOf instr = some promise

/-- Two completing threads hold the lock of a member each, and each waits for the lock that
the other one holds. -/
structure Deadlocked [DecidableEq P] [DecidableEq A] [Inhabited V]
    (classOf : A → ActionClass P A V) (members : List P) (state : State P A V)
    (thread other : Nat) (member member' : P) : Prop where
  threads : thread ≠ other
  members : member ∈ members ∧ member' ∈ members ∧ member ≠ member'
  completing : ∃ promise, Completing state thread promise
  completing' : ∃ promise, Completing state other promise
  holds : (machine classOf).Holds state thread member
  holds' : (machine classOf).Holds state other member'
  wants : Wants classOf state thread member'
  wants' : Wants classOf state other member

/-! ## Who asks whom -/

section Asks

variable (classOf : A → ActionClass P A V)

/-- The promises whose actions are run inside the completion of a promise. -/
inductive Above (promise : P) : P → Prop where
  | self : Above promise promise
  | consumer {action : A} {supplier : P} (member : supplier ∈ (classOf action).suppliers)
      (above : Above promise supplier) : Above promise (classOf action).consumer

/-- The action is run inside the completion of the promise. -/
def Reaches (promise : P) (action : A) : Prop :=
  ∃ supplier ∈ (classOf action).suppliers, Above classOf promise supplier

/-- An action that is run inside the completion of the one promise asks the other one. -/
def Asks (promise other : P) : Prop :=
  ∃ action, other ∈ (classOf action).suppliers ∧ Reaches classOf promise action

end Asks

/-! ## What a thread does -/

section Within

variable {classOf : A → ActionClass P A V}

variable (classOf) in
/-- Instructions inside a call that completes the promise, or inside one that registers
actions. -/
def Within (owner : Option P) : Instr P A V → Prop
  | .runActions promise | .onComplete promise | .unlock promise =>
      ∀ completed, owner = some completed → Above classOf completed promise
  | .tryRun action | .isSecondDone action | .claim action | .run action _ | .runSecond action _
  | .passException action _ _ | .setOutcome action _ _ =>
      ∀ completed, owner = some completed → Reaches classOf completed action
  | .returnTrue _ promise => owner = some promise
  | .registerAt _ _ | .addAction _ _ _ | .linkSecond _ | .linkException _
  | .linkExceptionSecond _ => owner = none
  | _ => False

/-- Instructions between the calls of a thread. -/
def Outside (members : List P) : Instr P A V → Prop
  | .call (.complete promise _) => promise ∈ members
  | .call (.cancel promise) => promise ∈ members
  | .call (.andTree _) => True
  | .isCancelled _ => True
  | _ => False

variable [Inhabited V] [DecidableEq P] [DecidableEq A] {promises after : Promises P A V}
variable {instr : Instr P A V} {rest pushed : List (Instr P A V)} {owner : Option P}

omit [Inhabited V] [DecidableEq P] [DecidableEq A] in
theorem not_owned {motive : P → Prop} (completed : P) (isOwner : none = some completed) :
    motive completed := by
  cases isOwner

/-- An instruction inside a call expands to instructions inside the call. -/
theorem execute_within (consistent : Consistent classOf promises)
    (double : ∀ action, (classOf action).isBiRelay = true)
    (within : Within classOf owner instr)
    (executes : execute classOf promises rest instr = some (after, pushed)) :
    ∀ next ∈ pushed, Within classOf owner next := by
  cases instr with
  | runActions promise =>
      simp only [execute] at executes
      split at executes
      · cases executes
        exact List.forall_mem_nil _
      · next action behind front =>
          cases executes
          have listed := consistent.listed action promise (by rw [front]; exact List.mem_cons_self)
          have reaches : Within classOf owner (.tryRun action : Instr P A V) :=
            fun completed isOwner => ⟨promise, listed, within completed isOwner⟩
          exact List.forall_mem_cons.mpr ⟨reaches, List.forall_mem_singleton.mpr within⟩
  | onComplete promise =>
      simp only [execute] at executes
      split at executes
      · cases executes
      · cases executes
        exact List.forall_mem_cons.mpr ⟨within, List.forall_mem_singleton.mpr within⟩
  | unlock | returnTrue =>
      cases executes
      exact List.forall_mem_nil _
  | tryRun action =>
      simp only [execute, double action, if_true] at executes
      split at executes
      · cases executes
        exact List.forall_mem_singleton.mpr within
      · cases executes
        exact List.forall_mem_nil _
  | isSecondDone action =>
      simp only [execute] at executes
      split at executes
      · cases executes
        exact List.forall_mem_singleton.mpr within
      · cases executes
        exact List.forall_mem_nil _
  | claim action =>
      simp only [execute] at executes
      split at executes
      · cases executes
        exact List.forall_mem_nil _
      · split at executes
        · cases executes
          exact List.forall_mem_nil _
        · cases executes
          exact List.forall_mem_singleton.mpr within
  | run action ending =>
      simp only [execute] at executes
      split at executes
      · cases executes
        exact List.forall_mem_singleton.mpr within
      · have isDouble := double action
        split at executes
        · cases executes
          exact List.forall_mem_singleton.mpr within
        · cases executes
          exact List.forall_mem_nil _
        · next other _ =>
            cases type : classOf action with
            | biRelay supplier1 supplier2 consumer => exact absurd type (other _ _ _)
            | function | relay | errorRelay =>
                rw [type] at isDouble
                cases isDouble
  | runSecond action ending =>
      simp only [execute] at executes
      split at executes
      · cases executes
        exact List.forall_mem_singleton.mpr within
      · cases executes
        exact List.forall_mem_singleton.mpr within
  | passException action supplier ending =>
      simp only [execute] at executes
      split at executes
      · cases executes
      · split at executes
        · next type =>
            have isDouble := double action
            rw [type] at isDouble
            cases isDouble
        · cases executes
          exact List.forall_mem_singleton.mpr within
  | setOutcome action outcome ending =>
      cases ending with
      | onComplete =>
          cases executes
          have completes : Within classOf owner
              (.onComplete (classOf action).consumer : Instr P A V) := by
            intro completed isOwner
            rcases within completed isOwner with ⟨supplier, member, above⟩
            exact .consumer member above
          exact List.forall_mem_singleton.mpr completes
      | returns actions =>
          simp only [execute] at executes
          split at executes
          · cases executes
            exact List.forall_mem_nil _
          · cases executes
  | registerAt action suppliers =>
      cases suppliers with
      | nil =>
          cases executes
          exact List.forall_mem_nil _
      | cons supplier suppliers =>
          obtain rfl : owner = none := within
          simp only [execute] at executes
          split at executes
          · cases executes
            exact List.forall_mem_cons.mpr ⟨not_owned, List.forall_mem_singleton.mpr rfl⟩
          · cases executes
            exact List.forall_mem_singleton.mpr rfl
  | addAction action supplier suppliers =>
      obtain rfl : owner = none := within
      simp only [execute] at executes
      split at executes
      · cases executes
        exact List.forall_mem_cons.mpr
          ⟨not_owned, List.forall_mem_cons.mpr ⟨not_owned, List.forall_mem_singleton.mpr rfl⟩⟩
      · cases executes
        exact List.forall_mem_singleton.mpr rfl
  | linkSecond action =>
      obtain rfl : owner = none := within
      simp only [execute] at executes
      split at executes
      · cases executes
        exact List.forall_mem_singleton.mpr rfl
      · cases executes
        exact List.forall_mem_singleton.mpr rfl
  | linkException action =>
      obtain rfl : owner = none := within
      simp only [execute] at executes
      split at executes
      · cases executes
        exact List.forall_mem_singleton.mpr not_owned
      · cases executes
        exact List.forall_mem_singleton.mpr rfl
  | linkExceptionSecond action =>
      obtain rfl : owner = none := within
      simp only [execute] at executes
      split at executes
      · cases executes
        exact List.forall_mem_singleton.mpr not_owned
      · cases executes
        exact List.forall_mem_singleton.mpr not_owned
  | _ => exact within.elim

variable (classOf) in
/-- A thread is at most inside one call, and has the other ones before it. -/
def Framed (members : List P) (stack : List (Instr P A V)) : Prop :=
  ∃ owner upper lower, stack = upper ++ lower ∧
    (∀ completed, owner = some completed → completed ∈ members) ∧
    (∀ instr ∈ upper, Within classOf owner instr) ∧ ∀ instr ∈ lower, Outside members instr

/-- A call at which a thread begins. -/
theorem execute_outside {members : List P} {lower : List (Instr P A V)}
    (outside : Outside members instr) (others : ∀ other ∈ lower, Outside members other)
    (executes : execute classOf promises rest instr = some (after, pushed)) :
    Framed classOf members (pushed ++ lower) := by
  cases instr with
  | call call =>
      cases call with
      | complete promise outcome =>
          simp only [execute, executeCall] at executes
          split at executes
          · cases executes
            exact ⟨none, [], lower, rfl, not_owned, List.forall_mem_nil _, others⟩
          · cases executes
            refine ⟨some promise, _, lower, rfl, ?_, ?_, others⟩
            · rintro _ ⟨⟩
              exact outside
            · have own : ∀ completed, some promise = some completed →
                  Above classOf completed promise := by
                rintro _ ⟨⟩
                exact .self
              exact List.forall_mem_cons.mpr
                ⟨own, List.forall_mem_cons.mpr ⟨own, List.forall_mem_singleton.mpr rfl⟩⟩
      | cancel promise =>
          cases executes
          refine ⟨none, [], _, rfl, not_owned, List.forall_mem_nil _, ?_⟩
          exact List.forall_mem_cons.mpr ⟨outside, List.forall_mem_cons.mpr ⟨trivial, others⟩⟩
      | andTree action =>
          simp only [execute, executeCall] at executes
          split at executes
          · cases executes
          · split at executes
            · cases executes
              exact ⟨none, _, lower, rfl, not_owned, List.forall_mem_singleton.mpr rfl, others⟩
            · cases executes
              exact ⟨none, _, lower, rfl, not_owned, List.forall_mem_singleton.mpr rfl, others⟩
      | register | anyOf => exact outside.elim
  | isCancelled promise =>
      cases executes
      exact ⟨none, [], lower, rfl, not_owned, List.forall_mem_nil _, others⟩
  | _ => exact outside.elim

theorem execute_framed {members : List P} (consistent : Consistent classOf promises)
    (double : ∀ action, (classOf action).isBiRelay = true)
    (framed : Framed classOf members (instr :: rest))
    (executes : execute classOf promises rest instr = some (after, pushed)) :
    Framed classOf members (pushed ++ rest) := by
  rcases framed with ⟨owner, upper, lower, parts, isMember, within, outside⟩
  cases upper with
  | nil =>
      obtain rfl : instr :: rest = lower := parts
      rcases List.forall_mem_cons.mp outside with ⟨isCall, others⟩
      exact execute_outside isCall others executes
  | cons top upper =>
      cases parts
      rcases List.forall_mem_cons.mp within with ⟨isTop, below⟩
      refine ⟨owner, pushed ++ upper, lower, (List.append_assoc _ _ _).symm, isMember, ?_, outside⟩
      intro next member
      rcases List.mem_append.mp member with isPushed | isBelow
      · exact execute_within consistent double isTop executes next isPushed
      · exact below next isBelow

end Within

/-! ## Runs -/

/-- A thread does not begin to complete a promise while another one is inside the completion of
a promise such that each of the two asks the other one. -/
def Apart (classOf : A → ActionClass P A V) (before after : State P A V) : Prop :=
  ∀ thread promise, ¬Completing before thread promise → Completing after thread promise →
    ∀ other completed, other ≠ thread → Completing before other completed → completed ≠ promise →
      ¬(Asks classOf promise completed ∧ Asks classOf completed promise)

/-- No two threads complete promises that ask each other. -/
def Separate (classOf : A → ActionClass P A V) (state : State P A V) : Prop :=
  ∀ thread other promise completed, thread ≠ other → Completing state thread promise →
    Completing state other completed → completed ≠ promise →
      ¬(Asks classOf promise completed ∧ Asks classOf completed promise)

/-- There is nothing but the tree of `allOf`, and its consumers are none of the members. -/
structure AllOfOnly [Inhabited V] (classOf : A → ActionClass P A V) (first : P) (others : List P)
    (action : Nat × Nat → A) (consumer : Nat × Nat → P) : Prop
    extends AllOf classOf first others action consumer where
  only : ∀ other, ∃ node ∈ AndTree.nodes others, other = action node
  fresh : ∀ node ∈ AndTree.nodes others, consumer node ∉ first :: others

namespace AllOfOnly

variable [Inhabited V] {classOf : A → ActionClass P A V} {first : P} {others : List P}
  {action : Nat × Nat → A} {consumer : Nat × Nat → P}

theorem double (allOf : AllOfOnly classOf first others action consumer) (other : A) :
    (classOf other).isBiRelay = true := by
  rcases allOf.only other with ⟨⟨start, stop⟩, isNode, rfl⟩
  rw [allOf.created start stop isNode]
  rfl

theorem consumer_fresh (allOf : AllOfOnly classOf first others action consumer) (other : A) :
    (classOf other).consumer ∉ first :: others := by
  rcases allOf.only other with ⟨⟨start, stop⟩, isNode, rfl⟩
  rw [allOf.created start stop isNode]
  exact allOf.fresh _ isNode

theorem above_member (allOf : AllOfOnly classOf first others action consumer) {promise member : P}
    (above : Above classOf promise member) (isMember : member ∈ first :: others) :
    member = promise := by
  cases above with
  | self => rfl
  | consumer => exact absurd isMember (allOf.consumer_fresh _)

variable [DecidableEq P] [DecidableEq A] {start state state' : State P A V}

/-- What holds between the steps. -/
structure Ordered (classOf : A → ActionClass P A V) (members : List P) (state : State P A V) :
    Prop extends Sound classOf state where
  framed : ∀ thread, Framed classOf members (state.stack thread)
  separate : Separate classOf state

omit [DecidableEq P] [DecidableEq A] in
theorem Ordered.initial {members : List P} (initial : Initial start)
    (calls : ∀ thread, ∀ instr ∈ start.stack thread, Outside members instr) :
    Ordered classOf members start where
  toSound := .initial initial
  framed thread :=
    ⟨none, [], start.stack thread, rfl, not_owned, List.forall_mem_nil _, calls thread⟩
  separate := by
    rintro thread _ promise _ _ ⟨number, member⟩
    rcases initial.calls thread _ member with ⟨call, ⟨⟩⟩

theorem Ordered.step {members : List P} (double : ∀ action, (classOf action).isBiRelay = true)
    (ordered : Ordered classOf members state) (step : (machine classOf).Step state state')
    (apart : Apart classOf state state') : Ordered classOf members state' where
  toSound := ordered.toSound.step step
  framed running := by
    cases step with
    | @exec thread instr rest pushed shared top free executes =>
        by_cases same : running = thread
        · rw [same, Config.stack_proceed_self]
          have framed := ordered.framed thread
          rw [top] at framed
          exact execute_framed ordered.consistent double framed executes
        · rw [Config.stack_proceed_of_ne _ _ _ same]
          exact ordered.framed running
    | take idle takes =>
        rcases takes with ⟨action, member, _⟩
        have deferred := ordered.consistent.deferred action member
        have isDouble := double action
        cases type : classOf action with
        | biRelay =>
            rw [type] at deferred
            cases deferred
        | function | relay | errorRelay =>
            rw [type] at isDouble
            cases isDouble
  separate := by
    intro thread other promise completed different completing completing' distinct asks
    rcases step.stays with ⟨moved, same⟩
    have kept {running : Nat} {promise : P} (isOther : running ≠ moved)
        (completing : Completing state' running promise) : Completing state running promise := by
      rwa [Completing, same running isOther] at completing
    by_cases isThread : thread = moved
    · have before' := kept (fun isMoved => different (isThread.trans isMoved.symm)) completing'
      by_cases before : Completing state thread promise
      · exact ordered.separate thread other promise completed different before before' distinct asks
      · exact apart thread promise before completing other completed different.symm before' distinct
          asks
    · have before := kept isThread completing
      by_cases before' : Completing state other completed
      · exact ordered.separate thread other promise completed different before before' distinct asks
      · exact apart other completed before' completing' thread promise different before
          distinct.symm ⟨asks.2, asks.1⟩

theorem reachable_ordered (allOf : AllOfOnly classOf first others action consumer)
    (initial : Initial start)
    (calls : ∀ thread, ∀ instr ∈ start.stack thread, Outside (first :: others) instr)
    (reached : Reachable (· = start)
      (fun before after => (machine classOf).Step before after ∧ Apart classOf before after) state) :
    Ordered classOf (first :: others) state := by
  apply Reachable.invariant _ _ reached
  · rintro _ rfl
    exact .initial initial calls
  · rintro before after _ ordered ⟨step, apart⟩
    exact ordered.step allOf.double step apart

/-- A completing thread that holds the lock of a member completes this member, and asks the
member for whose lock it waits. -/
theorem Ordered.asks (allOf : AllOfOnly classOf first others action consumer)
    (ordered : Ordered classOf (first :: others) state) {thread : Nat} {member member' : P}
    (isMember : member ∈ first :: others) (isMember' : member' ∈ first :: others)
    (distinct : member ≠ member') (completing : ∃ promise, Completing state thread promise)
    (holds : (machine classOf).Holds state thread member)
    (wants : Wants classOf state thread member') :
    Completing state thread member ∧ Asks classOf member member' := by
  rcases completing with ⟨promise, number, returning⟩
  rcases ordered.framed thread with ⟨owner, upper, lower, parts, _, within, outside⟩
  have inCall {instr : Instr P A V} (member : instr ∈ state.stack thread)
      (isInside : ¬Outside (first :: others) instr) : Within classOf owner instr := by
    rw [parts] at member
    rcases List.mem_append.mp member with isUpper | isLower
    · exact within instr isUpper
    · exact absurd (outside instr isLower) isInside
  obtain rfl : owner = some promise := inCall returning not_false
  have completes : member = promise := by
    rcases holds with ⟨instr, held, releases⟩
    cases instr with
    | unlock other =>
        cases releases
        exact allOf.above_member (inCall held not_false promise rfl) isMember
    | _ => cases releases
  subst completes
  refine ⟨⟨number, returning⟩, ?_⟩
  rcases wants with ⟨instr, rest, top, acquires⟩
  have inside : Within classOf (some member) instr := by
    rw [top] at parts
    cases upper with
    | nil =>
        rw [top, parts] at returning
        exact (outside _ returning).elim
    | cons first upper =>
        cases parts
        exact within _ List.mem_cons_self
  have fact := ordered.facts thread instr (by rw [top]; exact List.mem_cons_self)
  have asksAt {asked : A} (isSupplier : member' ∈ (classOf asked).suppliers)
      (reaches : ∀ completed, some member = some completed → Reaches classOf completed asked) :
      Asks classOf member member' := ⟨asked, isSupplier, reaches member rfl⟩
  cases instr with
  | tryRun asked =>
      simp only [PromiseMachine.acquires, allOf.double asked, if_true, Option.some.injEq] at acquires
      exact asksAt (acquires ▸ (classOf asked).supplier_mem) inside
  | isSecondDone asked =>
      cases acquires
      exact asksAt (classOf asked).supplier2_mem inside
  | run asked =>
      cases acquires
      exact asksAt (classOf asked).supplier_mem inside
  | runSecond asked =>
      cases acquires
      exact asksAt (classOf asked).supplier2_mem inside
  | passException asked supplier ending =>
      cases acquires
      rcases fact.2.2 with rfl | ⟨_, rfl, _⟩
      · exact asksAt (classOf asked).supplier_mem inside
      · exact asksAt (classOf asked).supplier2_mem inside
  | setOutcome asked =>
      cases acquires
      exact absurd isMember' (allOf.consumer_fresh asked)
  | onComplete completed =>
      cases acquires
      exact absurd (allOf.above_member (inside member rfl) isMember').symm distinct
  | registerAt | addAction | linkSecond | linkException | linkExceptionSecond => cases inside
  | runActions | unlock | returnTrue | claim => cases acquires
  | call | isCancelled | passResult | apply | scan | addAll | cleanUp | removeAll =>
      exact inside.elim

/-- Whatever the list, threads that keep apart in this way never wait for each other's
members. -/
theorem apart_never_deadlocked (allOf : AllOfOnly classOf first others action consumer)
    (initial : Initial start)
    (calls : ∀ thread, ∀ instr ∈ start.stack thread, Outside (first :: others) instr)
    (reached : Reachable (· = start)
      (fun before after => (machine classOf).Step before after ∧ Apart classOf before after) state)
    (thread other : Nat) (member member' : P) :
    ¬Deadlocked classOf (first :: others) state thread other member member' := by
  intro deadlocked
  have ordered := reachable_ordered allOf initial calls reached
  rcases deadlocked.members with ⟨isMember, isMember', distinct⟩
  rcases ordered.asks allOf isMember isMember' distinct deadlocked.completing deadlocked.holds
    deadlocked.wants with ⟨completing, asks⟩
  rcases ordered.asks allOf isMember' isMember distinct.symm deadlocked.completing'
    deadlocked.holds' deadlocked.wants' with ⟨completing', asks'⟩
  exact ordered.separate thread other member member' deadlocked.threads completing completing'
    distinct.symm ⟨asks, asks'⟩

end AllOfOnly

/-! ## Two leaves -/

/-- The members are 0 and 1, and the tree has one node. -/
def twoLeaves : Unit → ActionClass Nat Unit Nat := fun _ => .biRelay 0 1 2

theorem twoLeaves_allOf : AllOfOnly twoLeaves 0 [1] (fun _ => ()) (fun _ => 2) where
  created start stop member := by
    rw [AndTree.nodes_pair] at member
    cases List.mem_singleton.mp member
    rfl
  alone _ _ _ _ := rfl
  calls _ _ _ _ member := by cases member
  only _ := by
    rw [AndTree.nodes_pair]
    exact ⟨_, List.mem_cons_self, rfl⟩
  fresh _ _ := by decide

/-- One thread makes all calls. -/
def inOneThread : List (List (Instr Nat Unit Nat)) :=
  [[.call (.andTree ()), .call (.complete 0 (.ok 7)), .call (.complete 1 (.ok 8))]]

/-- A thread for each call. -/
def inThreeThreads : List (List (Instr Nat Unit Nat)) :=
  [[.call (.andTree ())], [.call (.complete 0 (.ok 7))], [.call (.complete 1 (.ok 8))]]

/-- What one thread does is never in its own way. -/
theorem inOneThread_apart : ∃ final : State Nat Unit Nat, final.shared.Done 2 ∧
    ∀ thread other member member',
      ¬Deadlocked twoLeaves [0, 1] final thread other member member' := by
  have made : ∀ program ∈ inOneThread, ∀ instr ∈ program,
      (∃ call, instr = .call call) ∧ Outside [0, 1] instr := by
    simp [inOneThread, Outside]
  have initial : Initial (.running fresh inOneThread : State Nat Unit Nat) :=
    { shared := rfl
      calls := by
        intro thread instr member
        rcases Config.mem_running member with ⟨program, isProgram, isInstr⟩
        exact (made program isProgram instr isInstr).1 }
  have calls : ∀ thread, ∀ instr ∈ (Config.running fresh inOneThread : State Nat Unit Nat).stack
      thread, Outside [0, 1] instr := by
    intro thread instr member
    rcases Config.mem_running member with ⟨program, isProgram, isInstr⟩
    exact (made program isProgram instr isInstr).2
  have scheduled : ∃ final, (machine twoLeaves).schedule (execute twoLeaves)
      (List.replicate 27 0) fresh inOneThread = some (final, [[]]) ∧
        (final.promise 2).mIsDone = true := ⟨_, rfl, rfl⟩
  rcases scheduled with ⟨final, scheduled, done⟩
  have reached := Machine.schedule_reachable id scheduled (.initial rfl)
  have alone : ∀ state, Reachable (· = .running fresh inOneThread) (machine twoLeaves).Step state →
      Sound twoLeaves state ∧ ∀ thread, thread ≠ 0 → state.stack thread = [] := by
    intro state reached
    apply Reachable.invariant _ _ reached
    · rintro _ rfl
      refine ⟨.initial initial, fun thread other => ?_⟩
      cases thread with
      | zero => exact absurd rfl other
      | succ thread => rfl
    · rintro before after _ ⟨sound, idle⟩ step
      refine ⟨sound.step step, fun thread other => ?_⟩
      cases step with
      | @exec running instr rest pushed shared top free executes =>
          have isRunning : running = 0 := by
            by_contra isOther
            rw [idle running isOther] at top
            cases top
          rw [Config.stack_proceed_of_ne _ _ _ fun same => other (same.trans isRunning)]
          exact idle thread other
      | take idle takes =>
          rcases takes with ⟨action, member, _⟩
          cases sound.consistent.deferred action member
  refine ⟨.running final [[]], done,
    twoLeaves_allOf.apart_never_deadlocked initial calls (reached.restrict ?_)⟩
  intro before after reached step thread promise _ completing other completed isOther completing'
  have idle {running : Nat} (isOther : running ≠ 0) {state : State Nat Unit Nat}
      (reached : Reachable (· = .running fresh inOneThread) (machine twoLeaves).Step state)
      {promise : Nat} : ¬Completing state running promise := by
    rintro ⟨number, member⟩
    rw [(alone state reached).2 running isOther] at member
    cases member
  by_cases isFirst : thread = 0
  · exact absurd completing' (idle (fun same => isOther (same.trans isFirst.symm)) reached)
  · exact absurd completing (idle isFirst (reached.step step))

/-- Both threads have completed their members and run the action of the node, whose first
supplier the one thread has asked and the other one cannot ask. -/
theorem inThreeThreads_deadlocked :
    Initial (.running fresh inThreeThreads : State Nat Unit Nat) ∧
      ∃ final, Reachable (· = .running fresh inThreeThreads) (machine twoLeaves).Step final ∧
        Deadlocked twoLeaves [0, 1] final 1 2 0 1 := by
  have made : ∀ program ∈ inThreeThreads, ∀ instr ∈ program, ∃ call, instr = .call call := by
    simp [inThreeThreads]
  have scheduled : ∃ final, (machine twoLeaves).schedule (execute twoLeaves)
      (List.replicate 6 0 ++ [1, 2, 1, 1, 2]) fresh inThreeThreads =
        some (final, [[],
          [.isSecondDone (), .runActions 0, .unlock 0, .returnTrue 0 0],
          [.tryRun (), .runActions 1, .unlock 1, .returnTrue 1 1]]) := ⟨_, rfl⟩
  rcases scheduled with ⟨final, scheduled⟩
  refine ⟨⟨rfl, ?_⟩, _, Machine.schedule_reachable id scheduled (.initial rfl), ?_⟩
  · intro thread instr member
    rcases Config.mem_running member with ⟨program, isProgram, isInstr⟩
    exact made program isProgram instr isInstr
  · exact
      { threads := by decide
        members := by decide
        completing := ⟨0, 0, by simp [Config.running]⟩
        completing' := ⟨1, 1, by simp [Config.running]⟩
        holds := ⟨.unlock 0, by simp [Config.running], rfl⟩
        holds' := ⟨.unlock 1, by simp [Config.running], rfl⟩
        wants := ⟨_, _, rfl, rfl⟩
        wants' := ⟨_, _, rfl, rfl⟩ }

end PromiseMachine

end Mindroid
