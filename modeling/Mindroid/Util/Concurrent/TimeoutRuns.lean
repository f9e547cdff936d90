import Mindroid.Util.Concurrent.TimeoutInvariant

/-!
# Runs with timeouts

Timeouts are tied to their clean-ups, and delayed promises get their outcomes, in exactly those runs
that add a timeout only where there is an executor for the clean-up, and that post no delayed
command with a delay that is cut.
-/

set_option autoImplicit false

namespace Mindroid

open Foundation Throwing

namespace Timeouts

variable {V : Type} {st : Timeouts V} {waiting : List (ObjectId × Nat)}
  {loose : ObjectId → Prop} {idle : Nat → Prop}

/-! ## From the invariant to what is expected -/

theorem initial_inv [Inhabited V] {loopers : Loopers} (posts : loopers.HasPosts sHandler []) :
    (initial loopers : Timeouts V).Inv [] Never Never where
  posts := posts
  known := fun _ member => absurd member List.not_mem_nil
  distinct := List.Pairwise.nil
  fresh := fun _ _ => rfl
  unmade := fun _ _ => ⟨rfl, rfl, rfl⟩
  suppliers := fun _ _ _ isDelayed => absurd isDelayed (Option.some_ne_none _).symm
  registered := fun _ _ member => absurd member List.not_mem_nil
  underWay := fun _ member => absurd member (not_or_intro List.not_mem_nil List.not_mem_nil)
  tied := fun _ member => absurd member List.not_mem_nil
  unscheduled := fun _ _ => rfl
  own := fun _ _ isScheduled => absurd isScheduled (Option.some_ne_none _).symm
  fired := fun _ _ isTimeout => absurd isTimeout (Option.some_ne_none _).symm
  ready := fun _ _ _ isDelayed => absurd isDelayed (Option.some_ne_none _).symm
  delivers := fun _ _ _ isDelayed => absurd isDelayed (Option.some_ne_none _).symm

theorem Inv.timely (inv : st.Inv waiting Never Never) : st.Timely where
  tied := by
    intro command due waits
    have member := (inv.posts.waits_mem_iff command due).mp waits
    exact inv.tied command (List.mem_map.mpr ⟨_, member, rfl⟩) id
  late := by
    intro command due time supplier delay waits isScheduled isDelayed
    have member := (inv.posts.waits_mem_iff command due).mp waits
    rcases inv.own command time isScheduled with
      ⟨consumer, own, ownDelay, isCommand, isOwn, _, _, inTime⟩
    rw [isCommand] at isDelayed
    have both : some (own, ownDelay) = some (supplier, delay) := isOwn.symm.trans isDelayed
    cases both
    exact inTime due member
  ready := by
    intro consumer supplier delay isDelayed supplierDone
    rcases inv.ready consumer supplier delay isDelayed id with
      done | ⟨pending, _⟩ | inTried | ⟨command, due, member, isScheduled, isConsumer⟩
    · exact .inl done
    · rw [supplierDone] at pending
      cases pending
    · exact .inr (.inl inTried)
    · exact .inr (.inr ⟨command, due, (inv.posts.waits_mem_iff command due).mpr member, isScheduled,
        isConsumer⟩)
  delivers := inv.delivers

/-- No action refers to a command that has not been made. -/
theorem Inv.untied (inv : st.Inv waiting loose idle) (executor supplier consumer : Nat)
    {command : ObjectId} (later : st.commandsMade ≤ command) :
    (∀ promise, .biConsumer executor supplier consumer command ∉ (st.promise promise).mActions) ∧
      .biConsumer executor supplier consumer command ∉ st.tried ∧
      .biConsumer executor supplier consumer command ∉ st.submitted := by
  refine ⟨fun promise member => ?_, fun member => ?_, fun member => ?_⟩
  · exact absurd (inv.registered promise _ member).2.2.1 (Nat.not_lt.mpr later)
  · exact absurd (inv.underWay _ (.inl member)).2.2.1 (Nat.not_lt.mpr later)
  · exact absurd (inv.underWay _ (.inr member)).2.2.1 (Nat.not_lt.mpr later)

/-- A new command that waits without a clean-up is not tied, also once some promise is done. -/
theorem Inv.posted_not_timely (inv : st.Inv waiting loose idle) {command : Timeout.Command V}
    {loopers : Loopers} {waiting' : List (ObjectId × Nat)}
    (posts : loopers.HasPosts sHandler waiting') {due : Nat}
    (added : waiting'.Perm ((st.commandsMade, due) :: waiting)) (mark : Option Nat) :
    ¬(st.posted command loopers mark).Timely ∧ ∀ promise outcome completer,
      ¬((st.posted command loopers mark).finished promise outcome completer).Timely := by
  have waits : loopers.Waits sHandler st.commandsMade due :=
    (posts.waits_mem_iff _ _).mpr (added.mem_iff.mpr List.mem_cons_self)
  constructor
  · intro timely
    rcases timely.tied st.commandsMade due waits with ⟨executor, consumer, places⟩
    rcases inv.untied executor _ consumer (Nat.le_refl _) with ⟨actions, tried, submitted⟩
    rcases places with ⟨_, inActions⟩ | inTried | inSubmitted
    · exact actions _ inActions
    · exact tried inTried
    · exact submitted inSubmitted
  · intro promise outcome completer timely
    have rest := (st.posted command loopers mark).finished_rest promise outcome completer
    have ended := (st.posted command loopers mark).finished_self promise outcome completer
    have stillWaits : ((st.posted command loopers mark).finished promise outcome
        completer).loopers.Waits sHandler st.commandsMade due := by
      rw [rest.1]
      exact waits
    rcases timely.tied st.commandsMade due stillWaits with ⟨executor, consumer, places⟩
    simp only at places
    rcases inv.untied executor _ consumer (Nat.le_refl _) with ⟨actions, tried, submitted⟩
    rcases places with ⟨_, inActions⟩ | inTried | inSubmitted
    · by_cases same : (((st.posted command loopers mark).finished promise outcome completer).command
          st.commandsMade).consumer = promise
      · rw [same, ended.2.1] at inActions
        exact List.not_mem_nil inActions
      · rw [promise_finished_of_ne same] at inActions
        exact actions _ inActions
    · rw [ended.2.2] at inTried
      rcases List.mem_append.mp inTried with before | moved
      · exact tried before
      · exact actions _ moved
    · rw [rest.2.2.2.2.1] at inSubmitted
      exact submitted inSubmitted

/-! ## Adding a timeout -/

/-- The state in which the next command is recorded to belong to a `DelayAction`, or not. -/
def marked (st : Timeouts V) (mark : Option Nat) : Timeouts V :=
  { st with scheduled := Function.update st.scheduled st.commandsMade mark }

/-- A new command is not recorded unless it belongs to a `DelayAction`. -/
theorem Inv.marked_none (inv : st.Inv waiting loose idle) : st.marked none = st := by
  have same : Function.update st.scheduled st.commandsMade none = st.scheduled :=
    Function.update_eq_self_iff.mpr (inv.unscheduled _ (Nat.le_refl _)).symm
  rw [marked, same]

/-- When a command is due that is posted now. -/
def dueAfter (st : Timeouts V) (timeout : UInt64) : Nat :=
  (st.loopers.uptimeMillis + timeout.toUInt32.toUInt64).toNat

/-- A delay that is not cut is over when the command is due. -/
theorem due_dueAfter_iff (st : Timeouts V) (delay : UInt64) :
    st.loopers.uptimeMillis.toNat + delay.toNat ≤ st.dueAfter delay ↔
      delay.toNat < 2 ^ 32 ∧ st.loopers.uptimeMillis.toNat + delay.toNat < 2 ^ 64 := by
  have below : st.dueAfter delay < 2 ^ 64 := UInt64.toNat_lt _
  constructor
  · intro waits
    have fits := Nat.lt_of_le_of_lt waits below
    refine ⟨(Loopers.delay_eq_iff fits).mp (Nat.le_antisymm ?_ waits), fits⟩
    rw [UInt64.toNat_add, UInt32.toNat_toUInt64, UInt64.toNat_toUInt32]
    exact Nat.le_trans (Nat.mod_le _ _) (Nat.add_le_add_left (Nat.mod_le _ _) _)
  · rintro ⟨short, fits⟩
    exact Nat.le_of_eq ((Loopers.delay_eq_iff fits).mpr short).symm

section Adding

variable [Inhabited V]

/-- After a timeout has been added and its clean-up registered. -/
def timed (st : Timeouts V) (promise executor : Nat) (command : Timeout.Command V)
    (loopers : Loopers) (mark : Option Nat) : Timeouts V :=
  ((st.posted command loopers mark).withPromise (some executor)).withAction promise
    (.biConsumer executor promise st.promisesMade st.commandsMade)

/-- The command is posted in any case. -/
theorem addTimeout_posts (posts : st.loopers.HasPosts sHandler waiting) {promise : Nat}
    (made : promise < st.promisesMade) (pending : (st.promise promise).mIsDone = false)
    (mark : Option Nat) (command : Timeout.Command V) (timeout : UInt64) :
    ∃ loopers waiting', loopers.HasPosts sHandler waiting' ∧
      waiting'.Perm ((st.commandsMade, st.dueAfter timeout) :: waiting) ∧
      (∀ (returns : Nat → Timeouts V → Prop) (throws : MethodThrow → Timeouts V → Prop),
        st.mExecutor promise = none →
          (Leads (addTimeout promise command timeout) returns throws (st.marked mark) ↔
            throws (.user (.exception (.root .nullPointerException "Executor must not be null")))
              (st.posted command loopers mark))) ∧
      ∀ (returns : Nat → Timeouts V → Prop) (throws : MethodThrow → Timeouts V → Prop)
        (executor : Nat), st.mExecutor promise = some executor →
          (Leads (addTimeout promise command timeout) returns throws (st.marked mark) ↔
            returns promise (st.timed promise executor command loopers mark)) := by
  rcases posts.postDelayed (fun _ st => st) st.commandsMade timeout with
    ⟨loopers, waiting', posted, posts', added, _⟩
  have added' : outcome (add st.commandsMade timeout) ((st.marked mark).created command) =
      (.ok ⟨⟩, st.posted command loopers mark) := by
    rw [outcome_eq_iff, add, leads_bind, leads_modify, leads_discard, leads_onLoopers]
    exact (leads_returned posted).mpr ⟨rfl, rfl⟩
  have leads : ∀ (returns : Nat → Timeouts V → Prop) (throws : MethodThrow → Timeouts V → Prop),
      Leads (addTimeout promise command timeout) returns throws (st.marked mark) ↔
        Leads (thenAccept promise (st.mExecutor promise) st.commandsMade)
          (fun _ => returns promise) throws (st.posted command loopers mark) := by
    intro returns throws
    have pending' : ((st.marked mark).promise promise).mIsDone = false := pending
    rw [leads_addTimeout_pending pending']
    exact leads_returned added'
  refine ⟨loopers, waiting', posts', added, fun returns throws none => ?_,
    fun returns throws executor some => ?_⟩
  · rw [leads, none]
    exact leads_thenAccept_none promise st.commandsMade
  · rw [leads, some]
    have made' : promise < (st.posted command loopers mark).promisesMade := made
    have pending' : ((st.posted command loopers mark).promise promise).mIsDone = false := pending
    rw [leads_thenAccept_pending made' pending', timed, ← some]
    exact Iff.rfl

/-- With its clean-up registered, the timeout keeps the invariant. -/
theorem Inv.timed (inv : st.Inv waiting loose idle) {promise : Nat}
    (made : promise < st.promisesMade) (pending : (st.promise promise).mIsDone = false)
    {command : Timeout.Command V} (isConsumer : command.consumer = promise) {loopers : Loopers}
    {waiting' : List (ObjectId × Nat)} (posts : loopers.HasPosts sHandler waiting') {due : Nat}
    (added : waiting'.Perm ((st.commandsMade, due) :: waiting)) {mark : Option Nat}
    (own : ∀ time, mark = some time → st.PostsOwn command time due) {idle' : Nat → Prop}
    (idler : ∀ consumer, idle consumer → idle' consumer ∨ (mark ≠ none ∧ consumer = promise))
    (executor : Nat) :
    (st.timed promise executor command loopers mark).Inv waiting' loose idle' := by
  have afterPost : (st.posted command loopers mark).Inv waiting'
      (fun id => loose id ∨ id = st.commandsMade) idle' :=
    inv.posted (isConsumer ▸ made) posts added own (fun _ is => is) (isConsumer ▸ idler)
  have afterPromise := afterPost.made (some executor) none fun _ _ isSome => by cases isSome
  have noDelay : Function.update (st.posted command loopers mark).delayed
      (st.posted command loopers mark).promisesMade none =
        (st.posted command loopers mark).delayed := by
    refine Function.update_eq_self_iff.mpr ?_
    exact (afterPost.unmade _ (Nat.le_refl _)).2.2.symm
  rw [noDelay] at afterPromise
  have same : ((st.posted command loopers mark).withPromise (some executor)).promise promise =
      st.promise promise := Function.update_of_ne (Nat.ne_of_lt made) _ _
  have stillPending : (((st.posted command loopers mark).withPromise (some executor)).promise
      promise).mIsDone = false := by
    rw [same]
    exact pending
  have valid : ((st.posted command loopers mark).withPromise (some executor)).Valid
      (.biConsumer executor promise st.promisesMade st.commandsMade) := by
    exact ⟨(congrArg Timeout.Command.consumer (st.command_posted command loopers mark)).trans
      isConsumer, Nat.lt_succ_self _, Nat.lt_succ_self _, (afterPost.unmade _ (Nat.le_refl _)).2.2⟩
  refine afterPromise.registers (Nat.lt_succ_of_lt made) stillPending rfl valid ?_ ?_
  · rintro id (isLoose | rfl)
    · exact .inl isLoose
    · exact .inr ⟨executor, _, rfl⟩
  · rintro consumer (isIdle | ⟨_, isSome⟩)
    · exact .inl isIdle
    · exact absurd rfl isSome

section Calls

variable {promise : Nat} {command : Timeout.Command V}

theorem Inv.leaves_addTimeout (inv : st.Inv waiting Never Never) (made : promise < st.promisesMade)
    (isConsumer : command.consumer = promise) (timeout : UInt64)
    (allowed : (st.promise promise).mIsDone = true ∨ (st.mExecutor promise).isSome = true) :
    Leaves (addTimeout promise command timeout)
      (fun st' => ∃ waiting', st'.Inv waiting' Never Never) st := by
  cases pending : (st.promise promise).mIsDone with
  | true =>
      rw [Leaves, leads_addTimeout_done pending]
      exact ⟨waiting, inv⟩
  | false =>
      rw [pending] at allowed
      rcases Option.isSome_iff_exists.mp (allowed.resolve_left Bool.false_ne_true) with
        ⟨executor, isExecutor⟩
      rcases addTimeout_posts inv.posts made pending none command timeout with
        ⟨loopers, waiting', posts, added, _, returns⟩
      rw [← inv.marked_none, Leaves, returns _ _ executor isExecutor]
      exact ⟨waiting', inv.timed made pending isConsumer posts added
        (fun _ isSome => by cases isSome) (fun _ is => .inl is) executor⟩

theorem Inv.addTimeout_settles (inv : st.Inv waiting Never Never)
    (made : promise < st.promisesMade) (isConsumer : command.consumer = promise)
    (timeout : UInt64)
    (allowed : (st.promise promise).mIsDone = true ∨ (st.mExecutor promise).isSome = true) :
    st.Settles promise (addTimeout promise command timeout) := by
  cases pending : (st.promise promise).mIsDone with
  | true =>
      rw [Settles, leads_addTimeout_done pending]
      exact .inl ⟨pending, rfl⟩
  | false =>
      rw [pending] at allowed
      rcases Option.isSome_iff_exists.mp (allowed.resolve_left Bool.false_ne_true) with
        ⟨executor, isExecutor⟩
      rcases addTimeout_posts inv.posts made pending none command timeout with
        ⟨loopers, waiting', posts, added, _, returns⟩
      have later : (st.timed promise executor command loopers none).Inv waiting' Never Never :=
        inv.timed made pending isConsumer posts added (fun _ isSome => by cases isSome)
          (fun _ is => .inl is) executor
      have settles := returns
        (fun _ st' => ((st.promise promise).mIsDone = true ∧ st' = st) ∨
          ((st.promise promise).mIsDone = false ∧ st.OneMore promise st'))
        (fun _ st' => (∀ command due, st'.loopers.Waits sHandler command due ↔
          st.loopers.Waits sHandler command due) ∧ st'.promise promise = st.promise promise)
        executor isExecutor
      rw [inv.marked_none] at settles
      refine settles.mpr (.inr ⟨pending, waiting, waiting', _, inv.posts, posts, added, ?_, ?_, ?_⟩)
      · exact fun member => absurd (inv.known _ member).1 (Nat.lt_irrefl _)
      · exact (congrArg Timeout.Command.consumer (st.command_posted command loopers none)).trans
          isConsumer
      · exact later.tied _ (List.mem_map.mpr ⟨_, added.mem_iff.mpr List.mem_cons_self, rfl⟩) id

/-- Without an executor, the timeout waits and has no clean-up. -/
theorem Inv.addTimeout_timely (inv : st.Inv waiting loose idle) (made : promise < st.promisesMade)
    (timeout : UInt64) :
    Leaves (addTimeout promise command timeout)
      (fun st' => st'.Timely →
        (st.promise promise).mIsDone = true ∨ (st.mExecutor promise).isSome = true) st := by
  cases pending : (st.promise promise).mIsDone with
  | true =>
      rw [Leaves, leads_addTimeout_done pending]
      exact fun _ => .inl rfl
  | false =>
      rcases addTimeout_posts inv.posts made pending none command timeout with
        ⟨loopers, waiting', posts, added, throws, returns⟩
      rw [inv.marked_none] at throws returns
      cases isExecutor : st.mExecutor promise with
      | none =>
          rw [Leaves, throws _ _ isExecutor]
          exact fun timely => absurd timely (inv.posted_not_timely posts added none).1
      | some executor =>
          rw [Leaves, returns _ _ executor isExecutor]
          exact fun _ => .inr rfl

end Calls

/-! ## The action of a delayed promise -/

section Delays

variable {supplier consumer : Nat} {delay : UInt64} {returns : PUnit → Timeouts V → Prop}
  {throws : MethodThrow → Timeouts V → Prop}

theorem leads_runDelay_failed {exception : Exception}
    (failed : (st.promise supplier).mException = some exception) :
    Leads (runDelay supplier consumer delay) returns throws st ↔
      returns ⟨⟩ (st.finished consumer (.error (toCompletionException exception)) .action) := by
  rw [runDelay, leads_bind, leads_get, failed, leads_bind, leads_setOutcome]
  exact Iff.rfl

theorem leads_runDelay_done (succeeded : (st.promise supplier).mException = none)
    (done : (st.promise consumer).mIsDone = true) :
    Leads (runDelay supplier consumer delay) returns throws st ↔ returns ⟨⟩ st := by
  rw [runDelay, leads_bind, leads_get, succeeded]
  simp only
  rw [leads_tryCatch, leads_bind, schedule, leads_modify, if_pos done, leads_bind, leads_get,
    leads_discard, completeOnTimeout, leads_addTimeout_done done]

theorem leads_runDelay_pending (succeeded : (st.promise supplier).mException = none)
    (pending : (st.promise consumer).mIsDone = false) :
    Leads (runDelay supplier consumer delay) returns throws st ↔
      Leads (addTimeout consumer (.completion consumer (st.promise supplier).mResult) delay)
        (fun _ => returns ⟨⟩)
        (fun thrown => Leads (failDelay consumer thrown) returns throws)
        (st.marked (some st.loopers.uptimeMillis.toNat)) := by
  rw [runDelay, leads_bind, leads_get, succeeded]
  simp only
  rw [leads_tryCatch, leads_bind, schedule, leads_modify, pending, if_neg Bool.false_ne_true,
    leads_bind, leads_get, leads_discard, completeOnTimeout]
  exact Iff.rfl

theorem Inv.leaves_runDelay (inv : st.Inv waiting Never idle)
    (isDelayed : st.delayed consumer = some (supplier, delay))
    (done : (st.promise supplier).mIsDone = true) (idler : ∀ other, idle other → other = consumer)
    (allowed : (st.promise supplier).mException ≠ none ∨ (st.promise consumer).mIsDone = true ∨
      st.InTime (st.mExecutor consumer) delay) :
    Leaves (runDelay supplier consumer delay)
      (fun st' => ∃ waiting', st'.Inv waiting' Never Never) st := by
  have made := inv.delayed_made isDelayed
  cases result : (st.promise supplier).mException with
  | some exception =>
      rw [Leaves, leads_runDelay_failed result]
      have may : st.MayFinish consumer (.error (toCompletionException exception)) .action := by
        refine ⟨fun _ isTimeout => (by cases isTimeout), fun other otherDelay same => ?_⟩
        rw [isDelayed] at same
        cases same
        exact ⟨fun _ => ⟨done, exception, result, rfl⟩, fun _ _ isTimeout => (by cases isTimeout)⟩
      refine ⟨waiting, (inv.finished made fun _ => may).mono (fun _ => id)
        fun other isIdle => .inr ?_⟩
      rw [idler other isIdle]
      exact (st.finished_self consumer _ _).1
  | none =>
      cases pending : (st.promise consumer).mIsDone with
      | true =>
          rw [Leaves, leads_runDelay_done result pending]
          refine ⟨waiting, inv.mono (fun _ => id) fun other isIdle => .inr ?_⟩
          rw [idler other isIdle]
          exact pending
      | false =>
          rw [result, pending] at allowed
          rcases (allowed.resolve_left fun is => is rfl).resolve_left Bool.false_ne_true with
            ⟨hasExecutor, inTime⟩
          rcases Option.isSome_iff_exists.mp hasExecutor with ⟨executor, isExecutor⟩
          rcases addTimeout_posts inv.posts made pending (some st.loopers.uptimeMillis.toNat)
              (.completion consumer (st.promise supplier).mResult) delay with
            ⟨loopers, waiting', posts, added, _, returns⟩
          rw [Leaves, leads_runDelay_pending result pending, returns _ _ executor isExecutor]
          refine ⟨waiting', inv.timed made pending rfl posts added ?_
            (fun other isIdle => .inr ⟨Option.some_ne_none _, idler other isIdle⟩) executor⟩
          intro time isTime
          rw [← Option.some.inj isTime]
          exact ⟨consumer, supplier, delay, rfl, isDelayed, done, result,
            (st.due_dueAfter_iff delay).mpr inTime⟩

/-- Without an executor the command waits without a clean-up, and a delay that is cut is over too
early. -/
theorem Inv.runDelay_timely (inv : st.Inv waiting loose idle)
    (isDelayed : st.delayed consumer = some (supplier, delay)) :
    Leaves (runDelay supplier consumer delay)
      (fun st' => st'.Timely →
        (st.promise supplier).mException ≠ none ∨ (st.promise consumer).mIsDone = true ∨
          st.InTime (st.mExecutor consumer) delay) st := by
  have made := inv.delayed_made isDelayed
  cases result : (st.promise supplier).mException with
  | some exception =>
      rw [Leaves, leads_runDelay_failed result]
      exact fun _ => .inl (Option.some_ne_none _)
  | none =>
      cases pending : (st.promise consumer).mIsDone with
      | true =>
          rw [Leaves, leads_runDelay_done result pending]
          exact fun _ => .inr (.inl rfl)
      | false =>
          rcases addTimeout_posts inv.posts made pending (some st.loopers.uptimeMillis.toNat)
              (.completion consumer (st.promise supplier).mResult) delay with
            ⟨loopers, waiting', posts, added, throws, returns⟩
          rw [Leaves, leads_runDelay_pending result pending]
          cases isExecutor : st.mExecutor consumer with
          | none =>
              rw [throws _ _ isExecutor, leads_failDelay]
              exact fun timely =>
                absurd timely ((inv.posted_not_timely posts added _).2 consumer _ _)
          | some executor =>
              rw [returns _ _ executor isExecutor]
              refine fun timely => .inr (.inr ⟨rfl, (st.due_dueAfter_iff delay).mp ?_⟩)
              have waits : loopers.Waits sHandler st.commandsMade (st.dueAfter delay) :=
                (posts.waits_mem_iff _ _).mpr (added.mem_iff.mpr List.mem_cons_self)
              have isOwn := congrArg (fun command => st.delayed command.consumer)
                (st.command_posted (.completion consumer (st.promise supplier).mResult) loopers
                  (some st.loopers.uptimeMillis.toNat))
              have isMarked := st.scheduled_posted
                (.completion consumer (st.promise supplier).mResult) loopers
                (some st.loopers.uptimeMillis.toNat)
              exact timely.late st.commandsMade (st.dueAfter delay) _ supplier delay waits isMarked
                (isOwn.trans isDelayed)

/-- After `delay` has made its promise. -/
def delaying (st : Timeouts V) (promise : Nat) (delay : UInt64) : Timeouts V :=
  { st.withPromise (st.mExecutor promise) with
    delayed := Function.update st.delayed st.promisesMade (some (promise, delay)) }

theorem promise_delaying {promise : Nat} (made : promise < st.promisesMade) (delay : UInt64) :
    (st.delaying promise delay).promise promise = st.promise promise :=
  Function.update_of_ne (Nat.ne_of_lt made) _ _

theorem delayed_delaying (st : Timeouts V) (promise : Nat) (delay : UInt64) :
    (st.delaying promise delay).delayed st.promisesMade = some (promise, delay) :=
  Function.update_self _ _ _

/-- The new promise is pending and has the executor of its supplier. -/
theorem new_delaying (st : Timeouts V) (promise : Nat) (delay : UInt64) :
    ((st.delaying promise delay).promise st.promisesMade).mIsDone = false ∧
      (st.delaying promise delay).mExecutor st.promisesMade = st.mExecutor promise := by
  have updated : (st.delaying promise delay).promise st.promisesMade =
      { mIsDone := false, mResult := default, mException := none, mActions := [] } :=
    Function.update_self _ _ _
  rw [updated]
  exact ⟨rfl, Function.update_self _ _ _⟩

theorem leads_delay {promise : Nat} (made : promise < st.promisesMade)
    {returns : Nat → Timeouts V → Prop} :
    Leads (Timeouts.delay promise delay) returns throws st ↔
      Leads (if (st.promise promise).mIsDone = true then runDelay promise st.promisesMade delay
        else addAction promise (.delay promise st.promisesMade delay))
        (fun _ => returns st.promisesMade) throws (st.delaying promise delay) := by
  rw [Timeouts.delay, leads_bind, leads_get, leads_bind, newPromise, leads_bind, leads_get,
    leads_bind, leads_modify, leads_pure, leads_bind, leads_modify, leads_bind, isDone, leads_bind,
    leads_get, leads_pure]
  change Leads (if ((st.delaying promise delay).promise promise).mIsDone = true then _ else _)
    returns throws (st.delaying promise delay) ↔ _
  rw [promise_delaying made]
  split
  · rw [leads_bind]
    exact Iff.rfl
  · rw [leads_bind]
    exact Iff.rfl

theorem leads_delay_pending {promise : Nat} (made : promise < st.promisesMade)
    (pending : (st.promise promise).mIsDone = false) {returns : Nat → Timeouts V → Prop} :
    Leads (Timeouts.delay promise delay) returns throws st ↔
      returns st.promisesMade ((st.delaying promise delay).withAction promise
        (.delay promise st.promisesMade delay)) := by
  have stillPending : ¬((st.delaying promise delay).promise promise).mIsDone = true := by
    rw [promise_delaying made, pending]
    exact Bool.false_ne_true
  rw [leads_delay made, pending, if_neg Bool.false_ne_true, addAction, leads_modify,
    if_neg stillPending]
  exact Iff.rfl

theorem leads_delay_done {promise : Nat} (made : promise < st.promisesMade)
    (done : (st.promise promise).mIsDone = true) {returns : Nat → Timeouts V → Prop} :
    Leads (Timeouts.delay promise delay) returns throws st ↔
      Leads (runDelay promise st.promisesMade delay) (fun _ => returns st.promisesMade) throws
        (st.delaying promise delay) := by
  rw [leads_delay made, if_pos done]

/-- The promise that `delay` makes has nothing to complete it yet. -/
theorem Inv.delaying (inv : st.Inv waiting loose Never) {promise : Nat}
    (made : promise < st.promisesMade) (delay : UInt64) :
    (st.delaying promise delay).Inv waiting loose fun consumer => consumer = st.promisesMade := by
  have same : ∀ supplier otherDelay, some (promise, delay) = some (supplier, otherDelay) →
      supplier < st.promisesMade := by
    intro supplier otherDelay same
    cases same
    exact made
  refine (inv.made (st.mExecutor promise) (some (promise, delay)) same).mono (fun _ => id) ?_
  rintro consumer (never | ⟨isNew, _⟩)
  · exact never.elim
  · exact .inl isNew

theorem Inv.leaves_delay (inv : st.Inv waiting Never Never) {promise : Nat}
    (made : promise < st.promisesMade)
    (allowed : (st.promise promise).mIsDone = false ∨ (st.promise promise).mException ≠ none ∨
      st.InTime (st.mExecutor promise) delay) :
    Leaves (Timeouts.delay promise delay)
      (fun st' => ∃ waiting', st'.Inv waiting' Never Never) st := by
  have afterPromise := inv.delaying made delay
  have same := promise_delaying made delay
  cases done : (st.promise promise).mIsDone with
  | true =>
      rw [Leaves, leads_delay_done made done]
      refine afterPromise.leaves_runDelay (st.delayed_delaying promise delay) ?_ (fun _ is => is) ?_
      · rw [same]
        exact done
      · rw [same]
        rw [done] at allowed
        rcases allowed with pending | failed | inTime
        · cases pending
        · exact .inl failed
        · refine .inr (.inr ?_)
          rw [(st.new_delaying promise delay).2]
          exact inTime
  | false =>
      rw [Leaves, leads_delay_pending made done]
      have valid : (st.delaying promise delay).Valid (.delay promise st.promisesMade delay) :=
        st.delayed_delaying promise delay
      refine ⟨waiting, afterPromise.registers (Nat.lt_succ_of_lt made) ?_ rfl valid
        (fun _ is => .inl is) ?_⟩
      · rw [same]
        exact done
      · rintro _ rfl
        exact .inr ⟨delay, rfl⟩

theorem Inv.delay_timely (inv : st.Inv waiting loose Never) {promise : Nat}
    (made : promise < st.promisesMade) :
    Leaves (Timeouts.delay promise delay)
      (fun st' => st'.Timely → (st.promise promise).mIsDone = false ∨
        (st.promise promise).mException ≠ none ∨ st.InTime (st.mExecutor promise) delay) st := by
  cases done : (st.promise promise).mIsDone with
  | false =>
      rw [Leaves, leads_delay_pending made done]
      exact fun _ => .inl rfl
  | true =>
      rw [Leaves, leads_delay_done made done]
      refine ((inv.delaying made delay).runDelay_timely (st.delayed_delaying promise delay)).mono
        fun st' exact timely => ?_
      have allowed := exact timely
      rw [promise_delaying made, (st.new_delaying promise delay).1,
        (st.new_delaying promise delay).2] at allowed
      rcases allowed with failed | isTrue | inTime
      · exact .inr (.inl failed)
      · cases isTrue
      · exact .inr (.inr inTime)

end Delays

end Adding

/-! ## Clean-ups and due commands -/

/-- A clean-up removes the posts of its command, and its promise gets the outcome of the
supplier. -/
theorem leads_runBiConsumer (posts : st.loopers.HasPosts sHandler waiting)
    (supplier consumer : Nat) (command : ObjectId) :
    ∃ loopers, loopers.HasPosts sHandler (waiting.filter fun other => !(other.1 == command)) ∧
      ∀ (returns : PUnit → Timeouts V → Prop) (throws : MethodThrow → Timeouts V → Prop),
        Leads (runBiConsumer supplier consumer command) returns throws st ↔
          returns ⟨⟩ (({ st with loopers } : Timeouts V).finished consumer
            (st.promise supplier).outcome .action) := by
  rcases posts.removeCallbacks command with ⟨loopers, found, removed, posts', _⟩
  refine ⟨loopers, posts', fun returns throws => ?_⟩
  rw [runBiConsumer, leads_bind, leads_tryCatch, leads_bind, leads_discard, leads_onLoopers,
    leads_returned removed, leads_bind, leads_get, Promise.outcome]
  simp only
  cases (st.promise supplier).mException with
  | none =>
      rw [leads_bind, leads_get, leads_setOutcome]
      exact Iff.rfl
  | some exception =>
      rw [leads_setOutcome]
      exact Iff.rfl

theorem Inv.leaves_runBiConsumer (inv : st.Inv waiting loose Never)
    (executor : Nat) {supplier consumer : Nat} {command : ObjectId}
    (valid : st.Valid (.biConsumer executor supplier consumer command))
    (done : (st.promise supplier).mIsDone = true)
    (looser : ∀ other, loose other → other = command) :
    Leaves (runBiConsumer supplier consumer command)
      (fun st' => ∃ waiting', st'.Inv waiting' Never Never ∧
        command ∉ waiting'.map Prod.fst) st := by
  rcases leads_runBiConsumer inv.posts supplier consumer command with ⟨loopers, posts, leads⟩
  have gone : command ∉
      (waiting.filter fun other => !(other.1 == command)).map Prod.fst := by
    intro member
    rcases List.mem_map.mp member with ⟨⟨other, due⟩, kept, isCommand⟩
    have apart := (List.mem_filter.mp kept).2
    rw [isCommand] at apart
    simp at apart
  rw [Leaves, leads]
  refine ⟨_, Inv.finished (inv.drops posts List.filter_sublist ?_ ?_) valid.2.2.1 fun _ => ?_, gone⟩
  · intro post member dropped
    by_cases isCommand : post.1 = command
    · rw [isCommand, valid.1]
      exact done
    · exact absurd (List.mem_filter.mpr ⟨member, by simpa using isCommand⟩) dropped
  · intro other member isLoose
    exact absurd (looser other isLoose ▸ member) gone
  · refine ⟨fun _ isTimeout => (by cases isTimeout), fun other delay isDelayed => ?_⟩
    have both : none = some (other, delay) := valid.2.2.2.symm.trans isDelayed
    cases both

theorem leads_completePending {returns : PUnit → Timeouts V → Prop}
    {throws : MethodThrow → Timeouts V → Prop} (promise : Nat) (outcome : Outcome V)
    (completer : TimedCompleter) :
    Leads (do if !(← isDone promise) then discard (complete promise outcome completer)) returns
        throws st ↔
      returns ⟨⟩ (if (st.promise promise).mIsDone then st else
        st.finished promise outcome completer) := by
  rw [leads_bind, isDone, leads_bind, leads_get, leads_pure]
  rcases Bool.eq_false_or_eq_true (st.promise promise).mIsDone with done | pending
  · rw [if_pos done, done]
    exact Iff.rfl
  · rw [if_neg (Bool.eq_false_iff.mp pending), pending]
    simp only [Bool.not_false, if_true]
    rw [leads_discard, leads_complete_pending pending]

theorem after_runCommand (st : Timeouts V) (command : ObjectId) :
    st.after (runCommand command) =
      if (st.promise (st.command command).consumer).mIsDone then st else
        st.finished (st.command command).consumer (st.command command).outcome
          (.timeout command) := by
  have leaves : Leaves (runCommand command)
      (fun st' => st' = if (st.promise (st.command command).consumer).mIsDone then st else
        st.finished (st.command command).consumer (st.command command).outcome
          (.timeout command)) st := by
    rw [Leaves, runCommand, leads_bind, leads_get]
    cases st.command command with
    | completion consumer value => exact (leads_completePending consumer _ _).mpr rfl
    | exception consumer message cause => exact (leads_completePending consumer _ _).mpr rfl
  exact leaves.after

/-- The queues have nothing to do with the end of a promise. -/
theorem finished_loopers (st : Timeouts V) {loopers : Loopers}
    (uptimeMillis : loopers.uptimeMillis = st.loopers.uptimeMillis) (promise : Nat)
    (outcome : Outcome V) (completer : TimedCompleter) :
    ({ st with loopers } : Timeouts V).finished promise outcome completer =
      { st.finished promise outcome completer with loopers } := by
  rw [finished, finished, withOutcome, withOutcome]
  cases (st.promise promise).mIsDone with
  | true => exact rfl
  | false => simp only [Bool.false_eq_true, if_false, uptimeMillis]

/-- A due command completes its promise as it should. -/
theorem Inv.mayFinish_timeout (inv : st.Inv waiting loose idle) {command : ObjectId} {due : Nat}
    (member : (command, due) ∈ waiting) (isDue : due ≤ st.loopers.uptimeMillis.toNat) :
    st.MayFinish (st.command command).consumer (st.command command).outcome
      (.timeout command) := by
  refine ⟨fun other isTimeout => ?_, fun supplier delay isDelayed => ?_⟩
  · cases isTimeout
    exact (inv.known command (List.mem_map.mpr ⟨_, member, rfl⟩)).1
  · refine ⟨fun isAction => (by cases isAction), fun other time isTimeout isScheduled => ?_⟩
    cases isTimeout
    rcases inv.own command time isScheduled with
      ⟨consumer, own, ownDelay, isCommand, isOwn, done, succeeded, inTime⟩
    rw [isCommand] at isDelayed ⊢
    have both : some (own, ownDelay) = some (supplier, delay) := isOwn.symm.trans isDelayed
    cases both
    exact ⟨done, succeeded, rfl, Nat.le_trans (inTime due member) isDue⟩

theorem Inv.fire (inv : st.Inv waiting Never Never) {next : Timeouts V}
    (fires : st.fire = some next) : ∃ waiting', next.Inv waiting' Never Never := by
  rcases inv.posts.dequeueMessage with
    ⟨result, dequeued, isNone⟩ |
      ⟨message, after, command, due, rest, dequeued, callback, split, isDue, posts⟩
  · rw [Timeouts.fire, dequeued] at fires
    cases result with
    | message message => exact absurd rfl (isNone message)
    | _ => cases fires
  · subst split
    rw [Timeouts.fire, dequeued] at fires
    simp only [callback, Option.some.injEq] at fires
    rw [after_runCommand] at fires
    rcases Bool.eq_false_or_eq_true (st.promise (st.command command).consumer).mIsDone with
      done | pending
    · rw [if_pos done] at fires
      rw [← fires]
      refine ⟨rest, inv.drops posts (List.sublist_cons_self _ _) ?_ fun _ _ => id⟩
      intro post member dropped
      rcases List.mem_cons.mp member with rfl | stays
      · exact done
      · exact absurd stays dropped
    · have sameUptime : (st.loopers.update (st.loopers.mMessageQueue sHandler) after).uptimeMillis =
          st.loopers.uptimeMillis := rfl
      have taken := st.finished_loopers sameUptime (st.command command).consumer
        (st.command command).outcome (.timeout command)
      rw [if_neg (Bool.eq_false_iff.mp pending), taken] at fires
      rw [← fires]
      have made := (inv.known command (List.mem_map.mpr ⟨_, List.mem_cons_self, rfl⟩)).2
      have ended := inv.finished made fun _ => inv.mayFinish_timeout List.mem_cons_self isDue
      refine ⟨rest, ended.drops posts (List.sublist_cons_self _ _) ?_ fun _ _ => id⟩
      intro post member dropped
      rcases List.mem_cons.mp member with rfl | stays
      · rw [(st.finished_rest _ _ _).2.2.1]
        exact (st.finished_self _ _ _).1
      · exact absurd stays dropped

/-! ## Steps -/

section Steps

theorem Inv.tries (inv : st.Inv waiting Never Never) (action : TimedAction) (consumer : Nat)
    (own : ∀ supplier other delay, action = .delay supplier other delay → other = consumer)
    (isDelay : ∀ executor supplier other command,
      action ≠ .biConsumer executor supplier other command) :
    ({ st with tried := st.tried.erase action } : Timeouts V).Inv waiting Never
      fun other => other = consumer := by
  refine inv.moves ?_ ?_ ?_ (fun _ => id) fun _ never => never.elim
  · exact fun other member => member.imp_left List.mem_of_mem_erase
  · intro executor supplier other command member
    have kept : TimedAction.biConsumer executor supplier other command ≠ action :=
      (isDelay executor supplier other command).symm
    exact (member.imp_left (List.mem_erase_of_ne kept).mpr).imp_right .inl
  · intro supplier other delay member
    by_cases same : TimedAction.delay supplier other delay = action
    · exact .inr (own supplier other delay same.symm)
    · exact .inl ((List.mem_erase_of_ne same).mpr member)

/-- A clean-up goes to its executor. -/
theorem Inv.submits (inv : st.Inv waiting Never Never) {action : TimedAction}
    (member : action ∈ st.tried)
    (isCleanUp : ∀ supplier consumer delay, action ≠ .delay supplier consumer delay) :
    ({ st with tried := st.tried.erase action, submitted := st.submitted ++ [action] } :
      Timeouts V).Inv waiting Never Never := by
  refine inv.moves ?_ ?_ ?_ (fun _ => id) fun _ => id
  · rintro other (inTried | inSubmitted)
    · exact .inl (List.mem_of_mem_erase inTried)
    · rcases List.mem_append.mp inSubmitted with before | isNew
      · exact .inr before
      · exact .inl (List.mem_singleton.mp isNew ▸ member)
  · rintro executor supplier consumer command (inTried | inSubmitted)
    · by_cases same : TimedAction.biConsumer executor supplier consumer command = action
      · exact .inr (.inl (List.mem_append_right _ (List.mem_singleton.mpr same)))
      · exact .inl ((List.mem_erase_of_ne same).mpr inTried)
    · exact .inr (.inl (List.mem_append_left _ inSubmitted))
  · intro supplier consumer delay inTried
    exact .inl ((List.mem_erase_of_ne (isCleanUp supplier consumer delay).symm).mpr inTried)

/-- An executor takes an action; a clean-up leaves its command loose. -/
theorem Inv.executes (inv : st.Inv waiting Never Never) (action : TimedAction)
    (loose' : ObjectId → Prop)
    (own : ∀ executor supplier consumer command,
      action = .biConsumer executor supplier consumer command → loose' command) :
    ({ st with submitted := st.submitted.erase action } : Timeouts V).Inv waiting loose'
      Never := by
  refine inv.moves ?_ ?_ ?_ (fun _ never => never.elim) fun _ => id
  · exact fun other member => member.imp_right List.mem_of_mem_erase
  · rintro executor supplier consumer command (inTried | inSubmitted)
    · exact .inl inTried
    · by_cases same : TimedAction.biConsumer executor supplier consumer command = action
      · exact .inr (.inr (own executor supplier consumer command same.symm))
      · exact .inr (.inl ((List.mem_erase_of_ne same).mpr inSubmitted))
  · exact fun supplier consumer delay inTried => .inl inTried

theorem Inv.cleansUp (inv : st.Inv waiting Never Never) {executor supplier consumer : Nat}
    {command : ObjectId}
    (member : .biConsumer executor supplier consumer command ∈ st.submitted) :
    ∃ waiting', (({ st with
        submitted := st.submitted.erase (.biConsumer executor supplier consumer command) } :
          Timeouts V).after (runBiConsumer supplier consumer command)).Inv waiting' Never Never ∧
      command ∉ waiting'.map Prod.fst := by
  rcases inv.underWay _ (.inr member) with ⟨done, valid⟩
  have taken := inv.executes (.biConsumer executor supplier consumer command)
    (fun other => other = command) fun _ _ _ _ same => by cases same; rfl
  exact Leaves.after (taken.leaves_runBiConsumer executor valid done fun _ is => is)

/-- A call may complete any promise. -/
theorem Inv.leaves_complete (inv : st.Inv waiting Never Never) {promise : Nat}
    (made : promise < st.promisesMade) (outcome : Outcome V) :
    Leaves (complete promise outcome .call)
      (fun st' => ∃ waiting', st'.Inv waiting' Never Never) st := by
  cases done : (st.promise promise).mIsDone with
  | true =>
      rw [Leaves, leads_complete_done done]
      exact ⟨waiting, inv⟩
  | false =>
      rw [Leaves, leads_complete_pending done]
      refine ⟨waiting, inv.finished made fun _ => ⟨fun _ isTimeout => (by cases isTimeout), ?_⟩⟩
      exact fun _ _ _ => ⟨fun isAction => (by cases isAction),
        fun _ _ isTimeout => (by cases isTimeout)⟩

variable [Inhabited V] {next : Timeouts V}

theorem Inv.step (inv : st.Inv waiting Never Never) {action : TimedStep V}
    (allowed : st.Allowed action) (taken : st.step action = some next) :
    ∃ waiting', next.Inv waiting' Never Never := by
  cases action with
  | makes executor =>
      cases taken
      have made := inv.made executor none fun _ _ isSome => by cases isSome
      have noDelay : Function.update st.delayed st.promisesMade none = st.delayed :=
        Function.update_eq_self_iff.mpr (inv.unmade _ (Nat.le_refl _)).2.2.symm
      rw [noDelay] at made
      refine ⟨waiting, made.mono (fun _ => id) ?_⟩
      rintro consumer (never | ⟨_, isSome⟩)
      · exact .inl never
      · exact absurd rfl isSome
  | onExecutor promise executor =>
      rcases Option.ite_some_none_eq_some.mp taken with ⟨made, rfl⟩
      exact ⟨waiting, { inv with }⟩
  | completes promise outcome =>
      rcases Option.ite_some_none_eq_some.mp taken with ⟨made, rfl⟩
      exact Leaves.after (inv.leaves_complete made outcome)
  | orTimeout promise timeout message cause =>
      rcases Option.ite_some_none_eq_some.mp taken with ⟨made, rfl⟩
      exact Leaves.after (inv.leaves_addTimeout made rfl timeout allowed)
  | completeOnTimeout promise value timeout =>
      rcases Option.ite_some_none_eq_some.mp taken with ⟨made, rfl⟩
      exact Leaves.after (inv.leaves_addTimeout made rfl timeout allowed)
  | delay promise delay =>
      rcases Option.ite_some_none_eq_some.mp taken with ⟨made, rfl⟩
      exact Leaves.after (inv.leaves_delay made allowed)
  | tries action =>
      rcases Option.ite_some_none_eq_some.mp taken with ⟨member, rfl⟩
      cases action with
      | biConsumer executor supplier consumer command =>
          exact ⟨waiting, inv.submits member fun _ _ _ same => by cases same⟩
      | delay supplier consumer delay =>
          rcases inv.underWay _ (.inl member) with ⟨done, valid⟩
          have taken := inv.tries (.delay supplier consumer delay) consumer
            (fun _ _ _ same => by cases same; rfl) fun _ _ _ _ same => by cases same
          exact Leaves.after (taken.leaves_runDelay valid done (fun _ is => is) allowed)
  | executes action =>
      rcases Option.ite_some_none_eq_some.mp taken with ⟨member, rfl⟩
      cases action with
      | biConsumer executor supplier consumer command =>
          rcases inv.cleansUp member with ⟨waiting', inv', _⟩
          exact ⟨waiting', inv'⟩
      | delay supplier consumer delay =>
          have taken := inv.executes (.delay supplier consumer delay) Never
            fun _ _ _ _ same => by cases same
          rcases inv.underWay _ (.inr member) with ⟨done, valid⟩
          exact Leaves.after (taken.leaves_runDelay valid done (fun _ never => never.elim) allowed)
  | fires =>
      rcases Option.ite_none_right_eq_some.mp taken with ⟨_, fires⟩
      exact inv.fire fires
  | ticks millis =>
      rcases Option.ite_some_none_eq_some.mp taken with ⟨_, rfl⟩
      rcases inv.posts with ⟨nodes, pooled, ⟨holds, running⟩, posts⟩
      exact ⟨waiting, { inv with posts := ⟨nodes, pooled, ⟨holds, running⟩, posts⟩ }⟩

/-- The condition holds wherever a step leads to what is expected. -/
theorem Inv.allowed (inv : st.Inv waiting Never Never) {action : TimedStep V}
    (taken : st.step action = some next) (timely : next.Timely) : st.Allowed action := by
  cases action with
  | orTimeout promise timeout message cause =>
      rcases Option.ite_some_none_eq_some.mp taken with ⟨made, rfl⟩
      exact Leaves.after (inv.addTimeout_timely made timeout) timely
  | completeOnTimeout promise value timeout =>
      rcases Option.ite_some_none_eq_some.mp taken with ⟨made, rfl⟩
      exact Leaves.after (inv.addTimeout_timely made timeout) timely
  | delay promise delay =>
      rcases Option.ite_some_none_eq_some.mp taken with ⟨made, rfl⟩
      exact Leaves.after (inv.delay_timely made) timely
  | tries action =>
      rcases Option.ite_some_none_eq_some.mp taken with ⟨member, rfl⟩
      cases action with
      | biConsumer executor supplier consumer command => exact trivial
      | delay supplier consumer delay =>
          have taken := inv.tries (.delay supplier consumer delay) consumer
            (fun _ _ _ same => by cases same; rfl) fun _ _ _ _ same => by cases same
          exact Leaves.after (taken.runDelay_timely (inv.underWay _ (.inl member)).2) timely
  | executes action =>
      rcases Option.ite_some_none_eq_some.mp taken with ⟨member, rfl⟩
      cases action with
      | biConsumer executor supplier consumer command => exact trivial
      | delay supplier consumer delay =>
          have taken := inv.executes (.delay supplier consumer delay) Never
            fun _ _ _ _ same => by cases same
          exact Leaves.after (taken.runDelay_timely (inv.underWay _ (.inr member)).2) timely
  | makes executor => exact trivial
  | onExecutor promise executor => exact trivial
  | completes promise outcome => exact trivial
  | fires => exact trivial
  | ticks millis => exact trivial

/-- Where the condition holds, a call settles and a clean-up removes its timeout. -/
theorem Inv.callSettles (inv : st.Inv waiting Never Never) {action : TimedStep V}
    (allowed : st.Allowed action) (taken : st.step action = some next) :
    st.CallSettles action next := by
  cases action with
  | orTimeout promise timeout message cause =>
      rcases Option.ite_some_none_eq_some.mp taken with ⟨made, _⟩
      exact inv.addTimeout_settles made rfl timeout allowed
  | completeOnTimeout promise value timeout =>
      rcases Option.ite_some_none_eq_some.mp taken with ⟨made, _⟩
      exact inv.addTimeout_settles made rfl timeout allowed
  | executes action =>
      rcases Option.ite_some_none_eq_some.mp taken with ⟨member, rfl⟩
      cases action with
      | biConsumer executor supplier consumer command =>
          rcases inv.cleansUp member with ⟨waiting', inv', gone⟩
          intro due waits
          have stays := (inv'.posts.waits_mem_iff command due).mp waits
          exact gone (List.mem_map.mpr ⟨_, stays, rfl⟩)
      | delay supplier consumer delay => exact trivial
  | makes executor => exact trivial
  | onExecutor promise executor => exact trivial
  | completes promise outcome => exact trivial
  | delay promise delay => exact trivial
  | tries action => exact trivial
  | fires => exact trivial
  | ticks millis => exact trivial

/-- Calls settle, timeouts are tied to their clean-ups and delayed promises get their outcomes in
exactly the runs that add timeouts only with an executor and in time. -/
theorem timely_iff {loopers : Loopers} (posts : loopers.HasPosts sHandler [])
    (actions : List (TimedStep V)) :
    (Always step Timely (initial loopers) actions ∧
        Relates step CallSettles (initial loopers) actions) ↔
      Meets step Allowed (initial loopers) actions := by
  have keeps : ∀ (st : Timeouts V) action next, (∃ waiting, st.Inv waiting Never Never) →
      st.Allowed action → st.step action = some next → ∃ waiting, next.Inv waiting Never Never :=
    fun _ _ _ inv allowed taken => inv.elim fun _ inv => inv.step allowed taken
  have starts : ∃ waiting, (initial loopers : Timeouts V).Inv waiting Never Never :=
    ⟨[], initial_inv posts⟩
  have exact := always_iff_meets (fun _ inv => inv.elim fun _ inv => inv.timely) keeps
    (fun _ _ _ inv taken timely => inv.elim fun _ inv => inv.allowed taken timely) starts actions
  constructor
  · exact fun both => exact.mp both.1
  · intro meets
    exact ⟨exact.mpr meets, meets.relates keeps
      (fun _ _ _ inv allowed taken => inv.elim fun _ inv => inv.callSettles allowed taken) starts⟩

end Steps

theorem nothing_posted : ({} : Loopers).HasPosts sHandler [] :=
  ⟨[], [], ⟨DelayedCall.untimed_holds 0, rfl⟩, rfl⟩

/-- A promise with an executor gets a timeout. -/
theorem timely_iff_executor :
    Always step Timely (initial {} : Timeouts Nat) [.makes (some 0), .orTimeout 0 5 "" none] ∧
      Relates step CallSettles (initial {} : Timeouts Nat)
        [.makes (some 0), .orTimeout 0 5 "" none] := by
  refine (timely_iff nothing_posted _).mpr fun made isMade => ⟨trivial, fun _ _ => ⟨?_, trivial⟩⟩
  cases isMade
  exact .inr rfl

/-- The timeout of a promise that was made by a thread without a looper stays behind. -/
theorem timeout_stays_behind :
    ¬(Always step Timely (initial {} : Timeouts Nat) [.makes none, .orTimeout 0 5 "" none] ∧
      Relates step CallSettles (initial {} : Timeouts Nat)
        [.makes none, .orTimeout 0 5 "" none]) := by
  rintro ⟨always, _⟩
  have isMade : step (initial {} : Timeouts Nat) (.makes none) =
    some ((initial {} : Timeouts Nat).withPromise none) := rfl
  have isCalled : step ((initial {} : Timeouts Nat).withPromise none) (.orTimeout 0 5 "" none) =
    some (((initial {} : Timeouts Nat).withPromise none).after (orTimeout 0 5 "" none)) := rfl
  have mayMake : (initial {} : Timeouts Nat).Allowed (.makes none) := trivial
  rcases (initial_inv nothing_posted).step mayMake isMade with ⟨waiting, made⟩
  have allowed := made.allowed isCalled ((always.2 _ isMade).2 _ isCalled)
  rcases allowed with done | hasExecutor
  · cases done
  · cases hasExecutor

end Timeouts

end Mindroid
