import Mindroid.Os.MessagePool
import Mindroid.Os.QueueFilter

/-!
# What queue operations do to the queue and to the pool

Continuations of result promises do not re-enter the queue here.  An operation turns the messages
of the queue and of the pool into others, and leaves all other messages as they are.
-/

set_option autoImplicit false

namespace Mindroid.QueueState

open Foundation

/-- The queue and the pool have these messages, and none in common. -/
structure Holds (st : QueueState) (nodes pooled : List MessageId) : Prop where
  represents : Represents st nodes
  pool : st.store.Pooled pooled
  apart : ∀ id ∈ nodes, id ∉ pooled

/-- Some messages have left the queue and were recycled. -/
structure Drops (st : QueueState) (nodes pooled : List MessageId) (st' : QueueState)
    (nodes' pooled' : List MessageId) : Prop where
  represents : Represents st' nodes'
  pool : st'.store.Pooled pooled'
  kept : nodes'.Sublist nodes
  contents : ∀ id ∈ nodes', st'.store.contents id = st.store.contents id
  elsewhere : ∀ id, id ∉ nodes → st'.store.messages id = st.store.messages id
  reused : ∀ id ∈ pooled', id ∈ pooled ∨ id ∈ nodes ∧ id ∉ nodes'
  isDone : ∀ result, st'.store.isDone result = true ↔ st.store.isDone result = true ∨
    ∃ id ∈ nodes, id ∉ nodes' ∧ (st.store.contents id).result = some result
  allocated : st'.store.allocated = st.store.allocated
  mQuitAllowed : st'.queue.mQuitAllowed = st.queue.mQuitAllowed
  mQuitting : st'.queue.mQuitting = st.queue.mQuitting

theorem Relinks.messages {st st' : QueueState} {touched : List MessageId}
    (relinks : Relinks st st' touched) {id : MessageId} (outside : id ∉ touched) :
    st'.store.messages id = st.store.messages id :=
  Store.message_eq (congrFun relinks.contents id) (relinks.next id outside)
    (relinks.prev id outside)

section Effects

variable {st st' st'' : QueueState} {nodes nodes' nodes'' pooled pooled' pooled'' : List MessageId}
  {message : MessageId}

theorem Holds.drops (holds : Holds st nodes pooled) (drops : Drops st nodes pooled st' nodes' pooled') :
    Holds st' nodes' pooled' where
  represents := drops.represents
  pool := drops.pool
  apart := by
    intro id member inPool
    cases drops.reused id inPool with
    | inl before => exact holds.apart id (drops.kept.subset member) before
    | inr left => exact left.2 member

theorem Drops.refl (holds : Holds st nodes pooled) : Drops st nodes pooled st nodes pooled where
  represents := holds.represents
  pool := holds.pool
  kept := List.Sublist.refl nodes
  contents := fun _ _ => rfl
  elsewhere := fun _ _ => rfl
  reused := fun _ member => .inl member
  isDone := by
    intro result
    refine (or_iff_left fun left => ?_).symm
    rcases left with ⟨id, member, absent, _⟩
    exact absent member
  allocated := rfl
  mQuitAllowed := rfl
  mQuitting := rfl

theorem Drops.trans (first : Drops st nodes pooled st' nodes' pooled')
    (second : Drops st' nodes' pooled' st'' nodes'' pooled'') :
    Drops st nodes pooled st'' nodes'' pooled'' where
  represents := second.represents
  pool := second.pool
  kept := second.kept.trans first.kept
  contents := fun id member =>
    (second.contents id member).trans (first.contents id (second.kept.subset member))
  elsewhere := fun id outside =>
    (second.elsewhere id fun member => outside (first.kept.subset member)).trans
      (first.elsewhere id outside)
  reused := by
    intro id member
    cases second.reused id member with
    | inl inPool =>
        cases first.reused id inPool with
        | inl before => exact .inl before
        | inr left => exact .inr ⟨left.1, fun inLast => left.2 (second.kept.subset inLast)⟩
    | inr left => exact .inr ⟨first.kept.subset left.1, left.2⟩
  isDone := by
    intro result
    rw [second.isDone, first.isDone, or_assoc]
    refine or_congr_right ⟨fun done => ?_, fun done => ?_⟩
    · cases done with
      | inl early =>
          rcases early with ⟨id, member, absent, carries⟩
          exact ⟨id, member, fun inLast => absent (second.kept.subset inLast), carries⟩
      | inr late =>
          rcases late with ⟨id, member, absent, carries⟩
          rw [first.contents id member] at carries
          exact ⟨id, first.kept.subset member, absent, carries⟩
    · rcases done with ⟨id, member, absent, carries⟩
      by_cases between : id ∈ nodes'
      · rw [← first.contents id between] at carries
        exact .inr ⟨id, between, absent, carries⟩
      · exact .inl ⟨id, member, between, carries⟩
  allocated := second.allocated.trans first.allocated
  mQuitAllowed := second.mQuitAllowed.trans first.mQuitAllowed
  mQuitting := second.mQuitting.trans first.mQuitting

/-! ## Recycling -/

/-- What recycling a message does to the store. -/
structure Recycles (st st' : QueueState) (message : MessageId) (pooled pooled' : List MessageId) :
    Prop where
  pool : st'.store.Pooled pooled'
  reused : pooled' = message :: pooled ∨ pooled' = pooled
  elsewhere : ∀ id, id ≠ message → st'.store.messages id = st.store.messages id
  isDone : ∀ result, st'.store.isDone result = true ↔
    st.store.isDone result = true ∨ (st.store.contents message).result = some result
  allocated : st'.store.allocated = st.store.allocated
  queue : st'.queue = st.queue

theorem Recycles.inside {st st' : QueueState} {message other : MessageId}
    {nodes pooled pooled' : List MessageId} (recycles : Recycles st st' message pooled pooled')
    (member : other ∈ nodes ∨ other ∈ pooled') :
    other = message ∨ other ∈ nodes ∨ other ∈ pooled := by
  cases member with
  | inl queued => exact .inr (.inl queued)
  | inr inPool =>
      cases recycles.reused with
      | inl returned =>
          rw [returned] at inPool
          exact (List.mem_cons.mp inPool).imp_right .inr
      | inr full => exact .inr (.inr (full ▸ inPool))

theorem isDone_cancel_quiet (st : QueueState) (result other : ObjectId) :
    (st.cancel Reentry.quiet.onCancel result).store.isDone other = true ↔
      st.store.isDone other = true ∨ result = other := by
  rw [cancel]
  split
  case isTrue done =>
    refine (or_iff_left_of_imp fun same => ?_).symm
    rw [← same]
    exact done
  case isFalse =>
    change Function.update st.store.isDone result true other = true ↔ _
    by_cases same : other = result
    · rw [same, Function.update_self]
      exact ⟨fun _ => .inr rfl, fun _ => rfl⟩
    · rw [Function.update_of_ne same]
      exact (or_iff_left fun equal => same equal.symm).symm

theorem recycles_quiet (pool : st.store.Pooled pooled) (absent : message ∉ pooled)
    (known : message < st.store.allocated) :
    ∃ pooled', Recycles st (st.recycle Reentry.quiet.onCancel message) message pooled pooled' := by
  rcases recycle_quiet st message with ⟨isDone, recycled⟩
  have prepared : ({ st.store with isDone := isDone } : Store).Pooled pooled :=
    pool.congr (fun _ _ => rfl) rfl (Nat.le_refl _)
  rcases prepared.reclaim absent known with ⟨pooled', pool', reused⟩
  refine ⟨pooled', ?_, reused, ?_, ?_, ?_, ?_⟩
  · rw [recycled]
    exact pool'
  · intro id apart
    rw [recycled]
    exact Store.messages_reclaim_of_ne apart
  · intro result
    have carried : (st.store.contents message).result = (st.store.messages message).result := rfl
    rw [carried, recycle]
    dsimp only
    rw [Store.isDone_reclaim]
    cases (st.store.messages message).result with
    | none => exact (or_iff_left (Option.some_ne_none result).symm).symm
    | some own =>
        rw [isDone_cancel_quiet]
        exact or_congr_right ⟨congrArg some, Option.some.inj⟩
  · rw [recycled]
    exact Store.allocated_reclaim _ _
  · rw [recycled]

/-- A message that is neither in the queue nor in the pool is recycled. -/
theorem Holds.recycle (holds : Holds st nodes pooled) (absent : message ∉ nodes)
    (notPooled : message ∉ pooled) (known : message < st.store.allocated) :
    ∃ pooled', Recycles st (st.recycle Reentry.quiet.onCancel message) message pooled pooled' ∧
      Holds (st.recycle Reentry.quiet.onCancel message) nodes pooled' := by
  rcases recycles_quiet holds.pool notPooled known with ⟨pooled', recycles⟩
  refine ⟨pooled', recycles, (holds.represents.recycle_quiet absent).1, recycles.pool,
    fun id member inPool => ?_⟩
  cases recycles.reused with
  | inl returned =>
      rw [returned] at inPool
      cases List.mem_cons.mp inPool with
      | inl same => exact absent (same ▸ member)
      | inr before => exact holds.apart id member before
  | inr full => exact holds.apart id member (full ▸ inPool)

/-- A message is unlinked and recycled. -/
theorem Holds.drop (holds : Holds st nodes pooled) {touched : List MessageId}
    (relinks : Relinks st st' touched) (inside : ∀ id ∈ touched, id ∈ nodes)
    (represents : Represents st' nodes') (kept : nodes'.Sublist nodes) (member : message ∈ nodes)
    (absent : message ∉ nodes') (only : ∀ id ∈ nodes, id ∉ nodes' → id = message) :
    ∃ pooled', Drops st nodes pooled (st'.recycle Reentry.quiet.onCancel message) nodes' pooled' := by
  have untouched : ∀ id, id ∉ nodes → st'.store.messages id = st.store.messages id :=
    fun id outside => relinks.messages fun inTouched => outside (inside id inTouched)
  have pool : st'.store.Pooled pooled :=
    holds.pool.congr (fun id inPool => untouched id fun queued => holds.apart id queued inPool)
      relinks.pool (Nat.le_of_eq relinks.allocated.symm)
  have known : message < st'.store.allocated := by
    rw [relinks.allocated]
    exact holds.represents.allocated message member
  rcases recycles_quiet pool (holds.apart message member) known with ⟨pooled', recycles⟩
  refine ⟨pooled', (represents.recycle_quiet absent).1, recycles.pool, kept, ?_, ?_, ?_, ?_, ?_, ?_, ?_⟩
  · intro id inKept
    have apart : id ≠ message := ne_of_mem_of_not_mem inKept absent
    exact (Store.contents_congr (recycles.elsewhere id apart)).trans (congrFun relinks.contents id)
  · intro id outside
    exact (recycles.elsewhere id fun same => outside (same ▸ member)).trans (untouched id outside)
  · intro id inPool
    cases recycles.reused with
    | inl returned =>
        rw [returned] at inPool
        cases List.mem_cons.mp inPool with
        | inl same => exact .inr ⟨same ▸ member, same ▸ absent⟩
        | inr before => exact .inl before
    | inr full => exact .inl (full ▸ inPool)
  · intro result
    rw [recycles.isDone, relinks.isDone, relinks.contents]
    refine or_congr_right ⟨fun carries => ⟨message, member, absent, carries⟩, fun left => ?_⟩
    rcases left with ⟨id, queued, gone, carries⟩
    rw [← only id queued gone]
    exact carries
  · exact recycles.allocated.trans relinks.allocated
  · exact (congrArg MessageQueue.mQuitAllowed recycles.queue).trans relinks.mQuitAllowed
  · exact (congrArg MessageQueue.mQuitting recycles.queue).trans relinks.mQuitting

/-! ## Messages outside of the queue -/

/-- The queue does not depend on other messages. -/
theorem Represents.of_messages (represents : Represents st nodes) {store : Store}
    (same : ∀ other ∈ nodes, store.messages other = st.store.messages other)
    (allocated : st.store.allocated ≤ store.allocated) :
    Represents { st with store } nodes :=
  represents.congr rfl rfl (fun other member => Store.next_congr (same other member))
    (fun other member => Store.prev_congr (same other member))
    (fun other member => Store.contents_congr (same other member)) allocated

/-- Only a message outside of the queue and the pool is overwritten. -/
theorem Holds.modify (holds : Holds st nodes pooled) (absent : message ∉ nodes)
    (notPooled : message ∉ pooled) (change : Message → Message) :
    Holds { st with store := st.store.modify message change } nodes pooled := by
  refine ⟨holds.represents.of_messages (fun other member => ?_) (Nat.le_refl _),
    holds.pool.modify notPooled change, holds.apart⟩
  exact Function.update_of_ne (ne_of_mem_of_not_mem member absent) _ _

/-- A message that is obtained was not queued. -/
theorem Holds.obtain (holds : Holds st nodes pooled) :
    ∃ pooled', Holds { st with store := st.store.obtain.1 } nodes pooled' ∧
      pooled'.Sublist pooled ∧ st.store.obtain.2 ∉ nodes ∧ st.store.obtain.2 ∉ pooled' ∧
      (st.store.obtain.2 ∈ pooled ∨ st.store.obtain.2 = st.store.allocated) ∧
      st.store.obtain.1.messages st.store.obtain.2 = {} ∧
      (∀ other, other ≠ st.store.obtain.2 →
        st.store.obtain.1.messages other = st.store.messages other) ∧
      st.store.allocated ≤ st.store.obtain.1.allocated ∧
      st.store.obtain.2 < st.store.obtain.1.allocated := by
  rcases holds.pool.obtain with
    ⟨pooled', pool, sublist, absent, comes, isNew, others, allocated, known, _⟩
  have notQueued : st.store.obtain.2 ∉ nodes := by
    intro member
    rcases comes with inPool | isNext
    · exact holds.apart _ member inPool
    · have below := holds.represents.allocated _ member
      rw [isNext] at below
      exact Nat.lt_irrefl _ below
  have same : ∀ other ∈ nodes, st.store.obtain.1.messages other = st.store.messages other :=
    fun other member => others other (ne_of_mem_of_not_mem member notQueued)
  exact ⟨pooled', ⟨holds.represents.of_messages same allocated, pool,
    fun other member inPool => holds.apart other member (sublist.subset inPool)⟩, sublist, notQueued,
    absent, comes, isNew, others, allocated, known⟩

/-! ## Removal -/

/-- Removed messages go to the pool. -/
theorem stepwise_drops : Stepwise Reentry.quiet.onCancel
    (fun st nodes => ∃ pooled, Holds st nodes pooled)
    fun st nodes st' nodes' => ∀ pooled, Holds st nodes pooled →
      ∃ pooled', Drops st nodes pooled st' nodes' pooled' where
  represents := fun isGood => isGood.elim fun _ holds => holds.represents
  refl := fun _ pooled holds => ⟨pooled, Drops.refl holds⟩
  trans := by
    intro st nodes st' nodes' st'' nodes'' first second pooled holds
    rcases first pooled holds with ⟨pooled', drops⟩
    rcases second pooled' (holds.drops drops) with ⟨pooled'', drops'⟩
    exact ⟨pooled'', drops.trans drops'⟩
  keeps := by
    rintro st nodes st' nodes' ⟨pooled, holds⟩ left
    rcases left pooled holds with ⟨pooled', drops⟩
    exact ⟨pooled', holds.drops drops⟩
  contents := by
    rintro st nodes st' nodes' ⟨pooled, holds⟩ left
    exact (left pooled holds).elim fun _ drops => drops.contents
  allocated := by
    rintro st nodes st' nodes' ⟨pooled, holds⟩ left
    exact (left pooled holds).elim fun _ drops => Nat.le_of_eq drops.allocated.symm
  one := fun _ relinks inside represents kept member absent only _ holds =>
    holds.drop relinks inside represents kept member absent only

/-- A removal drops exactly the messages that it matches, and tells whether there were any. -/
theorem remove_quiet (holds : Holds st nodes pooled) (removal : Removal) :
    ∃ st' pooled',
      st.remove Reentry.quiet.onCancel removal = .ok (st', nodes.any (removal.removes st)) ∧
      Drops st nodes pooled st' (nodes.filter fun id => !removal.removes st id) pooled' := by
  rcases removeTraced_spec stepwise_drops ⟨pooled, holds⟩ removal with ⟨st', returned, left⟩
  rcases left pooled holds with ⟨pooled', drops⟩
  refine ⟨st', pooled', ?_, drops⟩
  rw [← erase_removeTraced, returned]
  rfl

/-! ## Quitting -/

/-- Every message that the loop of `quit` comes to is recycled. -/
theorem recycleAll_recycles {start : Option MessageId} {fuel : Nat}
    (path : LinkPath st.store.next start nodes none) (nodup : nodes.Nodup)
    (pool : st.store.Pooled pooled) (apart : ∀ id ∈ nodes, id ∉ pooled)
    (known : ∀ id ∈ nodes, id < st.store.allocated) (enough : nodes.length < fuel) :
    ∃ st' pooled', recycleAll Reentry.quiet.onCancel fuel st start = .ok st' ∧
      st'.store.Pooled pooled' ∧
      (∀ id, id ∉ nodes → st'.store.messages id = st.store.messages id) ∧
      (∀ id ∈ pooled', id ∈ pooled ∨ id ∈ nodes) ∧
      (∀ result, st'.store.isDone result = true ↔ st.store.isDone result = true ∨
        ∃ id ∈ nodes, (st.store.contents id).result = some result) ∧
      st'.store.allocated = st.store.allocated ∧ st'.queue = st.queue := by
  induction nodes generalizing st pooled start fuel with
  | nil =>
      cases fuel with
      | zero => exact absurd enough (Nat.not_lt_zero _)
      | succ fuel =>
          rw [LinkPath.nil_iff.mp path]
          refine ⟨st, pooled, rfl, pool, fun _ _ => rfl, fun _ member => .inl member,
            fun result => (or_iff_left fun left => ?_).symm, rfl, rfl⟩
          rcases left with ⟨id, member, _⟩
          exact List.not_mem_nil member
  | cons first nodes ih =>
      cases fuel with
      | zero => exact absurd enough (Nat.not_lt_zero _)
      | succ fuel =>
          have distinct := List.nodup_cons.mp nodup
          rcases recycles_quiet pool (apart first List.mem_cons_self)
            (known first List.mem_cons_self) with ⟨pooled', recycles⟩
          have others : ∀ id ∈ nodes, id ≠ first := fun id member =>
            ne_of_mem_of_not_mem member distinct.1
          have same : ∀ id ∈ nodes, (st.recycle Reentry.quiet.onCancel first).store.messages id =
              st.store.messages id := fun id member => recycles.elsewhere id (others id member)
          have behind : LinkPath (st.recycle Reentry.quiet.onCancel first).store.next
              (st.store.messages first).nextMessage nodes none :=
            path.2.congr fun id member => Store.next_congr (same id member)
          have fromPool : ∀ id ∈ pooled', id ∈ pooled ∨ id = first := by
            intro id member
            cases recycles.reused with
            | inl returned =>
                rw [returned] at member
                exact (List.mem_cons.mp member).symm
            | inr full => exact .inl (full ▸ member)
          have apart' : ∀ id ∈ nodes, id ∉ pooled' := by
            intro id member inPool
            cases fromPool id inPool with
            | inl before => exact apart id (List.mem_cons_of_mem _ member) before
            | inr isFirst => exact others id member isFirst
          have known' : ∀ id ∈ nodes,
              id < (st.recycle Reentry.quiet.onCancel first).store.allocated := by
            intro id member
            rw [recycles.allocated]
            exact known id (List.mem_cons_of_mem _ member)
          rcases ih behind distinct.2 recycles.pool apart' known'
            (Nat.lt_of_succ_lt_succ enough) with
            ⟨st', pooled'', returned, pool', elsewhere, reused, isDone, allocated, queue⟩
          refine ⟨st', pooled'', ?_, pool', ?_, ?_, ?_, allocated.trans recycles.allocated,
            queue.trans recycles.queue⟩
          · rw [path.1]
            exact returned
          · intro id outside
            have notFirst : id ≠ first := fun isFirst => outside (isFirst ▸ List.mem_cons_self)
            exact (elsewhere id fun member => outside (List.mem_cons_of_mem _ member)).trans
              (recycles.elsewhere id notFirst)
          · intro id member
            cases reused id member with
            | inl inPool =>
                cases fromPool id inPool with
                | inl before => exact .inl before
                | inr isFirst => exact .inr (isFirst ▸ List.mem_cons_self)
            | inr inNodes => exact .inr (List.mem_cons_of_mem _ inNodes)
          · intro result
            rw [isDone, recycles.isDone, or_assoc, List.exists_mem_cons_iff]
            refine or_congr_right (or_congr_right (exists_congr fun id =>
              and_congr_right fun member => ?_))
            rw [Store.contents_congr (same id member)]

/-- What a call of `quit` does: nothing where it is not allowed or not the first one, else it
drops all messages. -/
theorem quit_quiet (holds : Holds st nodes pooled) :
    (st.queue.mQuitAllowed = false ∧ st.quit Reentry.quiet.onCancel = .ok (st, false)) ∨
      (st.queue.mQuitAllowed = true ∧ st.queue.mQuitting = true ∧
        st.quit Reentry.quiet.onCancel = .ok (st, true)) ∨
      (st.queue.mQuitAllowed = true ∧ st.queue.mQuitting = false ∧
        ∃ st' pooled', st.quit Reentry.quiet.onCancel = .ok (st', true) ∧
          Drops { st with queue := { st.queue with mQuitting := true } } nodes pooled
            st' [] pooled') := by
  cases allowed : st.queue.mQuitAllowed with
  | false =>
      refine .inl ⟨rfl, ?_⟩
      rw [QueueState.quit, allowed]
      rfl
  | true =>
      right
      cases quitting : st.queue.mQuitting with
      | true =>
          refine .inl ⟨rfl, rfl, ?_⟩
          rw [QueueState.quit, allowed, quitting]
          rfl
      | false =>
          refine .inr ⟨rfl, rfl, ?_⟩
          have path : LinkPath
              ({ st with queue := { st.queue with mQuitting := true } } : QueueState).store.next
              st.queue.mHeadMessage nodes none := holds.represents.linked.forward
          rcases recycleAll_recycles path holds.represents.nodup holds.pool holds.apart
            holds.represents.allocated (Nat.lt_succ_of_le holds.represents.length_le) with
            ⟨st', pooled', returned, pool, elsewhere, reused, isDone, known, queue⟩
          refine ⟨{ st' with
            queue := { st'.queue with mHeadMessage := none, mTailMessage := none } }, pooled', ?_,
            ?_⟩
          · rw [QueueState.quit, if_neg (by simp [allowed]), if_neg (by simp [quitting])]
            simp only [returned]
          · have quitAllowed : st'.queue.mQuitAllowed = st.queue.mQuitAllowed := by
              rw [queue]
            have nowQuitting : st'.queue.mQuitting = true := by
              rw [queue]
            refine ⟨⟨Linked.empty, List.Pairwise.nil, fun _ member => absurd member
              List.not_mem_nil, fun _ member => absurd member List.not_mem_nil⟩, pool,
              List.nil_sublist _, fun _ member => absurd member List.not_mem_nil, elsewhere,
              fun id member => (reused id member).imp_right fun inNodes =>
                ⟨inNodes, List.not_mem_nil⟩, ?_, known, quitAllowed, nowQuitting⟩
            intro result
            rw [isDone]
            exact or_congr_right (exists_congr fun id => and_congr_right fun _ =>
              (and_iff_right List.not_mem_nil).symm)

/-! ## Sending and dequeueing -/

/-- A message has joined the queue. -/
structure Joins (st : QueueState) (nodes pooled : List MessageId) (message : MessageId)
    (when : Nat) (st' : QueueState) (nodes' : List MessageId) : Prop where
  holds : Holds st' nodes' pooled
  stamped : st'.store.contents message =
    { (st.store.contents message).markInUse with when := when }
  contents : ∀ id, id ≠ message → st'.store.contents id = st.store.contents id
  elsewhere : ∀ id, id ≠ message → id ∉ nodes → st'.store.messages id = st.store.messages id
  isDone : st'.store.isDone = st.store.isDone
  allocated : st'.store.allocated = st.store.allocated
  mQuitAllowed : st'.queue.mQuitAllowed = st.queue.mQuitAllowed
  mQuitting : st'.queue.mQuitting = st.queue.mQuitting

theorem Holds.not_pooled_of_free (holds : Holds st nodes pooled)
    (free : (st.store.contents message).isInUse = false) : message ∉ pooled := by
  intro member
  rw [holds.pool.cleared message member] at free
  exact absurd free (by decide)

/-- What sending a fresh message does: an open queue takes it at its place in the due order, and
a quitting one recycles it. -/
theorem enqueueMessage_quiet (holds : Holds st nodes pooled) (fresh : st.Fresh message)
    (hasTarget : (st.store.messages message).target ≠ none) (when : Nat) :
    (st.queue.mQuitting = true ∧ ∃ st' pooled',
        st.enqueueMessage Reentry.quiet.onCancel message when = .ok (st', false) ∧
        Recycles st st' message pooled pooled' ∧ Holds st' nodes pooled') ∨
      (st.queue.mQuitting = false ∧ ∃ st' front back,
        st.enqueueMessage Reentry.quiet.onCancel message when = .ok (st', true) ∧
        nodes = front ++ back ∧ Joins st nodes pooled message when st' (front ++ message :: back) ∧
        (when = 0 → front = []) ∧
        (when ≠ 0 → (∀ other ∈ front, st.dueTime other ≤ when) ∧
          ∀ other ∈ back, when < st.dueTime other)) := by
  have free : (st.store.messages message).isInUse = false := fresh.free
  have absent := holds.represents.not_mem_of_free fresh.free
  have notPooled := holds.not_pooled_of_free fresh.free
  cases quitting : st.queue.mQuitting with
  | true =>
      refine .inl ⟨rfl, ?_⟩
      rcases holds.recycle absent notPooled fresh.known with ⟨pooled', recycles, holds'⟩
      refine ⟨_, pooled', ?_, recycles, holds'⟩
      rw [QueueState.enqueueMessage, if_neg hasTarget, free, quitting]
      rfl
  | false =>
      refine .inr ⟨rfl, ?_⟩
      have ready : st.Ready message :=
        ⟨hasTarget, fresh.free, fresh.next, fresh.prev, fresh.known⟩
      rcases holds.represents.enqueueMessage_place quitting ready when with
        ⟨st', front, back, returned, relinks, split, represents, place⟩
      have stamped : ∀ id, id ≠ message → (st.store.stamp message when).messages id =
          st.store.messages id := fun id apart => Function.update_of_ne apart _ _
      have elsewhere : ∀ id, id ≠ message → id ∉ nodes →
          st'.store.messages id = st.store.messages id := fun id apart outside =>
        (relinks.messages fun member =>
          (List.mem_cons.mp member).elim apart outside).trans (stamped id apart)
      have pool : st'.store.Pooled pooled := by
        refine holds.pool.congr (fun id inPool => ?_) relinks.pool
          (Nat.le_of_eq relinks.allocated.symm)
        exact elsewhere id (ne_of_mem_of_not_mem inPool notPooled) fun member =>
          holds.apart id member inPool
      refine ⟨st', front, back, returned, split, ⟨⟨represents, pool, ?_⟩, ?_, ?_, elsewhere,
        relinks.isDone, relinks.allocated, relinks.mQuitAllowed, relinks.mQuitting⟩, place⟩
      · intro id member inPool
        have inside : id = message ∨ id ∈ nodes := by
          rw [split]
          simp only [List.mem_append, List.mem_cons] at member ⊢
          tauto
        cases inside with
        | inl same => exact notPooled (same ▸ inPool)
        | inr queued => exact holds.apart id queued inPool
      · rw [relinks.contents]
        exact (congrFun (Store.contents_stamp _ _ _) message).trans (Function.update_self _ _ _)
      · intro id apart
        rw [relinks.contents]
        exact (congrFun (Store.contents_stamp _ _ _) id).trans (Function.update_of_ne apart _ _)

/-- What taking the head of the queue leaves behind. -/
structure Takes (st : QueueState) (nodes pooled : List MessageId) (message : MessageId)
    (st' : QueueState) (rest : List MessageId) : Prop where
  holds : Holds st' rest pooled
  contents : st'.store.contents = st.store.contents
  elsewhere : ∀ id, id ∉ nodes → st'.store.messages id = st.store.messages id
  next : st'.store.next message = none
  prev : st'.store.prev message = none
  isDone : st'.store.isDone = st.store.isDone
  allocated : st'.store.allocated = st.store.allocated
  mQuitAllowed : st'.queue.mQuitAllowed = st.queue.mQuitAllowed
  mQuitting : st'.queue.mQuitting = st.queue.mQuitting

/-- What one round of `dequeueMessage` does: it takes the head of a queue that does not quit when
the head is due, and does nothing else. -/
theorem dequeueMessage_quiet (holds : Holds st nodes pooled) (now : Nat) :
    (st.queue.mQuitting = true ∧ st.dequeueMessage now = (st, .quitting)) ∨
      (∃ timeout, st.dequeueMessage now = (st, .await timeout)) ∨
      ∃ message rest st', st.dequeueMessage now = (st', .message message) ∧
        st.queue.mQuitting = false ∧ nodes = message :: rest ∧ st.dueTime message ≤ now ∧
        Takes st nodes pooled message st' rest := by
  have headEq := holds.represents.linked.head_eq
  cases quitting : st.queue.mQuitting with
  | true =>
      refine .inl ⟨rfl, ?_⟩
      rw [QueueState.dequeueMessage, quitting]
      rfl
  | false =>
      right
      cases nodes with
      | nil =>
          rw [List.head?_nil] at headEq
          refine .inl ⟨none, ?_⟩
          rw [QueueState.dequeueMessage, quitting, headEq]
          rfl
      | cons message rest =>
          rw [List.head?_cons] at headEq
          by_cases early : now < (st.store.messages message).when
          · refine .inl ⟨some (min ((st.store.messages message).when - now) integerMaxValue), ?_⟩
            rw [QueueState.dequeueMessage, quitting, headEq]
            exact if_pos early
          · right
            have represents : Represents st ([] ++ message :: rest) := holds.represents
            have relinks := unlinkHead_relinks represents
            have unlinked := unlinkHead_represents represents
            generalize headUnlinked :
              st.unlinkHead (st.store.messages message).nextMessage = st₁ at relinks unlinked
            have absent := (List.nodup_cons.mp holds.represents.nodup).1
            have apart : ∀ id ∈ rest, id ≠ message := fun id member =>
              ne_of_mem_of_not_mem member absent
            have next : ((st₁.store.setPrev message none).setNext message none).next =
                Function.update st₁.store.next message none := by
              rw [Store.next_setNext, Store.next_setPrev]
            have prev : ((st₁.store.setPrev message none).setNext message none).prev =
                Function.update st₁.store.prev message none := by
              rw [Store.prev_setNext, Store.prev_setPrev]
            have contents : ((st₁.store.setPrev message none).setNext message none).contents =
                st.store.contents := by
              rw [Store.contents_setNext, Store.contents_setPrev, relinks.contents]
            have elsewhere : ∀ id, id ∉ message :: rest →
                ((st₁.store.setPrev message none).setNext message none).messages id =
                  st.store.messages id := by
              intro id outside
              have notMessage : id ≠ message := fun same => outside (same ▸ List.mem_cons_self)
              have notRest : id ∉ rest := fun member => outside (List.mem_cons_of_mem _ member)
              refine Store.message_eq (congrFun contents id) ?_ ?_
              · rw [next, Function.update_of_ne notMessage, relinks.next id notRest]
              · rw [prev, Function.update_of_ne notMessage, relinks.prev id notRest]
            refine ⟨message, rest,
              { st₁ with store := (st₁.store.setPrev message none).setNext message none }, ?_, rfl,
              rfl, Nat.not_lt.mp early, ?_⟩
            · rw [QueueState.dequeueMessage, quitting, headEq]
              refine (if_neg early).trans ?_
              rw [headUnlinked]
            · constructor
              · constructor
                · refine unlinked.congr rfl rfl (fun id member => ?_) (fun id member => ?_)
                    (fun id _ => ?_) (Nat.le_refl _)
                  · exact (congrFun next id).trans (Function.update_of_ne (apart id member) _ _)
                  · exact (congrFun prev id).trans (Function.update_of_ne (apart id member) _ _)
                  · exact congrFun (contents.trans relinks.contents.symm) id
                · exact holds.pool.congr
                    (fun id inPool => elsewhere id fun member => holds.apart id member inPool)
                    relinks.pool (Nat.le_of_eq relinks.allocated.symm)
                · exact fun id member => holds.apart id (List.mem_cons_of_mem _ member)
              · exact contents
              · exact elsewhere
              · exact (congrFun next message).trans (Function.update_self _ _ _)
              · exact (congrFun prev message).trans (Function.update_self _ _ _)
              · exact relinks.isDone
              · exact relinks.allocated
              · exact relinks.mQuitAllowed
              · exact relinks.mQuitting

end Effects

end Mindroid.QueueState
