import Mindroid.Os.Looper

/-!
# Runs of a looper

In every run, the messages of the looper are the messages of a mailbox, and each step of the
looper is one of the mailbox.  What the mailbox guarantees then holds for the looper.
-/

set_option autoImplicit false

namespace Mindroid

open Foundation QueueState

namespace Looper

/-- The thread of the looper has the message. -/
def Phase.Has (message : MessageId) : Phase → Prop
  | .dequeued other => other = message
  | .dispatching other => other = message
  | _ => False

/-- The message is neither in the queue nor in the pool. -/
def Outside (st : QueueState) (nodes pooled : List MessageId) (message : MessageId) : Prop :=
  message ∉ nodes ∧ message ∉ pooled ∧ message < st.store.allocated

/-- The queue, the pool, the looper thread and the others have different messages. -/
structure Shape (looper : Looper) (nodes pooled : List MessageId) : Prop where
  holds : looper.state.Holds nodes pooled
  drained : looper.state.queue.mQuitting = true → nodes = []
  targets : ∀ message ∈ nodes, (looper.state.store.messages message).target ≠ none
  fresh : ∀ message, looper.owner message = .sender → looper.state.Fresh message
  elsewhere : ∀ message, looper.owner message = .elsewhere →
    Outside looper.state nodes pooled message
  current : ∀ message, looper.phase.Has message →
    Outside looper.state nodes pooled message ∧ looper.owner message = .nobody
  target : ∀ message, looper.phase = .dequeued message →
    (looper.state.store.messages message).target ≠ none

/-- What the thread of the looper does with a message of the mailbox. -/
def reader (looper : Looper) : Mailbox.Reader :=
  match looper.phase with
  | .dequeued message => .dequeued (looper.number message)
  | .dispatching message => .dispatching (looper.number message)
  | _ => .idle

/-- The mailbox with the messages of the queue. -/
def mailbox (looper : Looper) (nodes : List MessageId) : Mailbox where
  waiting := nodes.map fun message => (looper.number message, looper.state.dueTime message)
  reader := looper.reader
  time := looper.uptimeMillis
  sends := looper.sends
  quitting := looper.state.queue.mQuitting
  history := looper.log

/-- The step of the looper is one of its mailbox. -/
def Simulates (looper : Looper) (nodes : List MessageId) (next : Looper) : Prop :=
  ∃ nodes' pooled', next.Shape nodes' pooled' ∧
    (looper.mailbox nodes).Step (next.mailbox nodes') ∧ next.raised = looper.raised

section Steps

variable {looper : Looper} {nodes pooled : List MessageId}

theorem walk_eq {messages : MessageId → Message} {start : Option MessageId} {fuel : Nat}
    (path : LinkPath (fun message => (messages message).nextMessage) start nodes none)
    (enough : nodes.length ≤ fuel) : walk messages fuel start = nodes := by
  induction nodes generalizing start fuel with
  | nil =>
      rw [LinkPath.nil_iff.mp path]
      cases fuel with
      | zero => rfl
      | succ fuel => rfl
  | cons first nodes ih =>
      cases fuel with
      | zero => exact absurd enough (Nat.not_succ_le_zero _)
      | succ fuel =>
          rw [path.1, walk]
          exact congrArg (first :: ·) (ih path.2 (Nat.le_of_succ_le_succ enough))

theorem queued_eq (represents : looper.state.Represents nodes) : looper.queued = nodes :=
  walk_eq represents.linked.forward represents.length_le

theorem Shape.outside (shape : looper.Shape nodes pooled) {message : MessageId}
    (owned : looper.owner message ≠ .nobody) : Outside looper.state nodes pooled message := by
  cases owner : looper.owner message with
  | nobody => exact absurd owner owned
  | sender =>
      have fresh := shape.fresh message owner
      exact ⟨shape.holds.represents.not_mem_of_free fresh.free,
        shape.holds.not_pooled_of_free fresh.free, fresh.known⟩
  | elsewhere => exact shape.elsewhere message owner

/-- A fresh message stays so as long as it is not touched. -/
theorem fresh_congr {st st' : QueueState} {message : MessageId} (fresh : st.Fresh message)
    (same : st'.store.messages message = st.store.messages message)
    (allocated : st.store.allocated ≤ st'.store.allocated) : st'.Fresh message where
  free := (congrArg Message.isInUse (Store.contents_congr same)).trans fresh.free
  next := (Store.next_congr same).trans fresh.next
  prev := (Store.prev_congr same).trans fresh.prev
  known := Nat.lt_of_lt_of_le fresh.known allocated

/-- A step that touches some messages keeps the others apart. -/
theorem Shape.transfer (shape : looper.Shape nodes pooled) {next : Looper}
    {nodes' pooled' : List MessageId} (touched : MessageId → Prop)
    (holds : next.state.Holds nodes' pooled')
    (drained : next.state.queue.mQuitting = true → nodes' = [])
    (targets : ∀ message ∈ nodes', (next.state.store.messages message).target ≠ none)
    (inside : ∀ message, message ∈ nodes' ∨ message ∈ pooled' →
      touched message ∨ message ∈ nodes ∨ message ∈ pooled)
    (same : ∀ message, ¬touched message → message ∉ nodes →
      next.state.store.messages message = looper.state.store.messages message)
    (allocated : looper.state.store.allocated ≤ next.state.store.allocated)
    (owner : ∀ message, ¬touched message → next.owner message = looper.owner message)
    (phase : ∀ message, ¬touched message → next.phase.Has message → looper.phase.Has message)
    (target : ∀ message, next.phase = .dequeued message →
      (next.state.store.messages message).target ≠ none)
    (own : ∀ message, touched message →
      (next.owner message = .sender → next.state.Fresh message) ∧
        (next.owner message = .elsewhere → Outside next.state nodes' pooled' message) ∧
          (next.phase.Has message →
            Outside next.state nodes' pooled' message ∧ next.owner message = .nobody)) :
    next.Shape nodes' pooled' := by
  have stays : ∀ {message}, ¬touched message → Outside looper.state nodes pooled message →
      Outside next.state nodes' pooled' message := by
    intro message apart outside
    have never : ¬(message ∈ nodes' ∨ message ∈ pooled') := fun member =>
      (inside message member).elim apart fun before => before.elim outside.1 outside.2.1
    exact ⟨fun member => never (.inl member), fun member => never (.inr member),
      Nat.lt_of_lt_of_le outside.2.2 allocated⟩
  constructor
  case holds => exact holds
  case drained => exact drained
  case targets => exact targets
  case target => exact target
  case fresh =>
    intro message isSender
    by_cases isTouched : touched message
    · exact (own message isTouched).1 isSender
    · rw [owner message isTouched] at isSender
      have fresh := shape.fresh message isSender
      have notQueued := shape.holds.represents.not_mem_of_free fresh.free
      exact fresh_congr fresh (same message isTouched notQueued) allocated
  case elsewhere =>
    intro message isElsewhere
    by_cases isTouched : touched message
    · exact (own message isTouched).2.1 isElsewhere
    · rw [owner message isTouched] at isElsewhere
      exact stays isTouched (shape.elsewhere message isElsewhere)
  case current =>
    intro message has
    by_cases isTouched : touched message
    · exact (own message isTouched).2.2 has
    · have before := shape.current message (phase message isTouched has)
      exact ⟨stays isTouched before.1, (owner message isTouched).trans before.2⟩

/-- The looper thread does not have what someone else owns. -/
theorem Shape.not_has (shape : looper.Shape nodes pooled) {message other : MessageId}
    (owned : looper.owner message ≠ .nobody) (has : looper.phase.Has other) : other ≠ message := by
  intro same
  have owner := (shape.current other has).2
  rw [same] at owner
  exact owned owner

/-- Of a message that nobody owns only what the looper thread has matters. -/
theorem own_of_nobody {next : Looper} {nodes' pooled' : List MessageId}
    {message other : MessageId} (nobody : next.owner message = .nobody)
    (current : next.phase.Has message → Outside next.state nodes' pooled' message)
    (same : other = message) :
    (next.owner other = .sender → next.state.Fresh other) ∧
      (next.owner other = .elsewhere → Outside next.state nodes' pooled' other) ∧
        (next.phase.Has other →
          Outside next.state nodes' pooled' other ∧ next.owner other = .nobody) := by
  rw [same]
  refine ⟨fun isSender => ?_, fun isElsewhere => ?_, fun has => ⟨current has, nobody⟩⟩
  · exact absurd (nobody.symm.trans isSender) (by simp)
  · exact absurd (nobody.symm.trans isElsewhere) (by simp)

theorem dueTime_congr {st st' : QueueState} {message : MessageId}
    (same : st'.store.contents message = st.store.contents message) :
    st'.dueTime message = st.dueTime message :=
  congrArg Message.when same

theorem waiting_congr (looper : Looper) {next : Looper} {nodes' : List MessageId}
    (number : ∀ message ∈ nodes', next.number message = looper.number message)
    (contents : ∀ message ∈ nodes',
      next.state.store.contents message = looper.state.store.contents message) :
    (nodes'.map fun message => (next.number message, next.state.dueTime message)) =
      nodes'.map fun message => (looper.number message, looper.state.dueTime message) :=
  List.map_congr_left fun message member =>
    Prod.ext (number message member) (dueTime_congr (contents message member))

theorem mailbox_eq (looper : Looper) {next : Looper} {nodes' : List MessageId}
    (number : ∀ message ∈ nodes', next.number message = looper.number message)
    (contents : ∀ message ∈ nodes',
      next.state.store.contents message = looper.state.store.contents message) :
    next.mailbox nodes' =
      { next.mailbox nodes' with
        waiting := nodes'.map fun message =>
          (looper.number message, looper.state.dueTime message) } :=
  congrArg (fun waiting => ({ next.mailbox nodes' with waiting } : Mailbox))
    (waiting_congr looper number contents)

theorem reader_congr {next : Looper} (phase : next.phase = looper.phase)
    (number : ∀ message, looper.phase.Has message →
      next.number message = looper.number message) : next.reader = looper.reader := by
  rw [reader, reader, phase]
  cases current : looper.phase with
  | dequeueing => rfl
  | returned => rfl
  | dequeued message =>
      exact congrArg Mailbox.Reader.dequeued (number message (by rw [current]; exact rfl))
  | dispatching message =>
      exact congrArg Mailbox.Reader.dispatching (number message (by rw [current]; exact rfl))

/-- A step that concerns neither the queue nor the looper thread. -/
theorem simulates_aside {next : Looper} (pooled' : List MessageId)
    (shape : next.Shape nodes pooled')
    (contents : ∀ message ∈ nodes,
      next.state.store.contents message = looper.state.store.contents message)
    (queue : next.state.queue.mQuitting = looper.state.queue.mQuitting)
    (number : next.number = looper.number) (phase : next.phase = looper.phase)
    (time : looper.uptimeMillis ≤ next.uptimeMillis) (sends : next.sends = looper.sends)
    (log : next.log = looper.log) (raised : next.raised = looper.raised) :
    looper.Simulates nodes next := by
  refine ⟨nodes, pooled', shape, ?_, raised⟩
  have same : next.mailbox nodes = { looper.mailbox nodes with time := next.uptimeMillis } := by
    refine Eq.trans (mailbox_eq looper (fun message _ => congrFun number message) contents) ?_
    rw [mailbox, queue, sends, log, reader_congr phase fun message _ => congrFun number message]
    rfl
  rw [same]
  exact .waits time

/-! ## Senders and other loopers -/

theorem obtain_simulates (shape : looper.Shape nodes pooled) :
    looper.Simulates nodes looper.obtain := by
  rcases shape.holds.obtain with
    ⟨pooled', holds, sublist, notQueued, _, comes, isNew, others, allocated, known⟩
  have obtained : looper.obtain =
      { looper with
        state := { looper.state with store := looper.state.store.obtain.1 }
        owner := Function.update looper.owner looper.state.store.obtain.2 .sender } := rfl
  rw [obtained]
  generalize looper.state.store.obtain.2 = message at notQueued comes isNew others known
  generalize looper.state.store.obtain.1 = store at holds isNew others allocated known
  have notOutside : ¬Outside looper.state nodes pooled message := by
    intro outside
    cases comes with
    | inl inPool => exact outside.2.1 inPool
    | inr isNext => exact absurd (isNext ▸ outside.2.2) (Nat.lt_irrefl _)
  have sameQueued : ∀ other ∈ nodes, store.messages other = looper.state.store.messages other :=
    fun other member => others other (ne_of_mem_of_not_mem member notQueued)
  refine simulates_aside pooled' ?_ (fun other member => Store.contents_congr (sameQueued other member))
    rfl rfl rfl (Nat.le_refl _) rfl rfl rfl
  refine shape.transfer (· = message) holds shape.drained ?_ ?_
    (fun other apart _ => others other apart) allocated
    (fun other apart => Function.update_of_ne apart _ _) (fun _ _ has => has) ?_ ?_
  · intro other member
    have target := shape.targets other member
    rw [← sameQueued other member] at target
    exact target
  · exact fun other member => .inr (member.imp_right fun inPool => sublist.subset inPool)
  · intro other dequeued
    have apart : other ≠ message := by
      intro same
      have has : looper.phase.Has other := by
        rw [show looper.phase = .dequeued other from dequeued]
        exact rfl
      exact notOutside (same ▸ (shape.current other has).1)
    have target := shape.target other dequeued
    rw [← others other apart] at target
    exact target
  · intro other same
    rw [same]
    have nowSender : Function.update looper.owner message .sender message = .sender :=
      Function.update_self _ _ _
    refine ⟨fun _ => ?_, fun isElsewhere => ?_, fun has => ?_⟩
    · have messageIs : store.messages message = {} := isNew
      refine ⟨?_, ?_, ?_, known⟩
      · exact congrArg (fun m : Message => m.unlinked.isInUse) messageIs
      · exact congrArg Message.nextMessage messageIs
      · exact congrArg Message.prevMessage messageIs
    · exact absurd (nowSender.symm.trans isElsewhere) (by simp)
    · exact absurd (shape.current message has).1 notOutside

/-- A message that nobody else has is overwritten by who has it. -/
theorem modify_simulates (shape : looper.Shape nodes pooled) {message : MessageId}
    (outside : Outside looper.state nodes pooled message) (change : Message → Message)
    (notDequeued : looper.phase ≠ .dequeued message)
    (fresh : looper.owner message = .sender →
      ({ looper.state with
        store := looper.state.store.modify message change } : QueueState).Fresh message) :
    looper.Simulates nodes
      { looper with
        state := { looper.state with store := looper.state.store.modify message change } } := by
  have same : ∀ other, other ≠ message →
      (looper.state.store.modify message change).messages other =
        looper.state.store.messages other := fun other apart => Function.update_of_ne apart _ _
  have sameQueued : ∀ other ∈ nodes, (looper.state.store.modify message change).messages other =
      looper.state.store.messages other := fun other member =>
    same other (ne_of_mem_of_not_mem member outside.1)
  refine simulates_aside pooled ?_ (fun other member => Store.contents_congr (sameQueued other member))
    rfl rfl rfl (Nat.le_refl _) rfl rfl rfl
  refine shape.transfer (· = message) (shape.holds.modify outside.1 outside.2.1 change)
    shape.drained ?_
    (fun _ member => .inr member) (fun other apart _ => same other apart) (Nat.le_refl _)
    (fun _ _ => rfl) (fun _ _ has => has) ?_ ?_
  · intro other member
    have target := shape.targets other member
    rw [← sameQueued other member] at target
    exact target
  · intro other dequeued
    have target := shape.target other dequeued
    rw [← same other fun equal => notDequeued (equal ▸ dequeued)] at target
    exact target
  · intro other isMessage
    rw [isMessage]
    exact ⟨fresh, fun _ => outside, fun has => ⟨outside, (shape.current message has).2⟩⟩

theorem fill_simulates (shape : looper.Shape nodes pooled) {message : MessageId}
    (payload : Message)
    (has : looper.owner message = .sender ∨ looper.phase = .dispatching message) :
    looper.Simulates nodes
      { looper with
        state := { looper.state with
          store := looper.state.store.modify message (fill payload) } } := by
  have filled : (looper.state.store.modify message (fill payload)).messages message =
      fill payload (looper.state.store.messages message) := Function.update_self _ _ _
  refine modify_simulates shape ?_ (fill payload) ?_ ?_
  · cases has with
    | inl isSender => exact shape.outside (by rw [isSender]; simp)
    | inr dispatching => exact (shape.current message (by rw [dispatching]; exact rfl)).1
  · intro dequeued
    cases has with
    | inl isSender =>
        have owner := (shape.current message (by rw [dequeued]; exact rfl)).2
        exact absurd (isSender.symm.trans owner) (by simp)
    | inr dispatching => exact absurd (dispatching.symm.trans dequeued) (by simp)
  · intro isSender
    have fresh := shape.fresh message isSender
    refine ⟨?_, ?_, ?_, fresh.known⟩
    · exact (congrArg (fun m : Message => m.unlinked.isInUse) filled).trans fresh.free
    · exact (congrArg Message.nextMessage filled).trans fresh.next
    · exact (congrArg Message.prevMessage filled).trans fresh.prev

theorem lend_simulates (shape : looper.Shape nodes pooled) {message : MessageId}
    (isSender : looper.owner message = .sender) :
    looper.Simulates nodes
      { looper with owner := Function.update looper.owner message .elsewhere } := by
  have outside := shape.outside (by rw [isSender]; simp : looper.owner message ≠ .nobody)
  refine simulates_aside pooled ?_ (fun _ _ => rfl) rfl rfl rfl (Nat.le_refl _) rfl rfl rfl
  refine shape.transfer (· = message) shape.holds shape.drained shape.targets
    (fun _ member => .inr member) (fun _ _ _ => rfl) (Nat.le_refl _)
    (fun other apart => Function.update_of_ne apart _ _) (fun _ _ has => has) shape.target ?_
  intro other isMessage
  rw [isMessage]
  have nowElsewhere : Function.update looper.owner message .elsewhere message = .elsewhere :=
    Function.update_self _ _ _
  refine ⟨fun again => absurd (nowElsewhere.symm.trans again) (by simp), fun _ => outside,
    fun has => ?_⟩
  exact absurd (isSender.symm.trans (shape.current message has).2) (by simp)

/-- A message that the looper thread or another looper has is recycled. -/
theorem recycled_shape (shape : looper.Shape nodes pooled) {message : MessageId}
    (outside : Outside looper.state nodes pooled message) {next : Looper}
    (state : next.state = looper.state.recycle Reentry.quiet.onCancel message)
    (owner : ∀ other, other ≠ message → next.owner other = looper.owner other)
    (nobody : next.owner message = .nobody)
    (phase : ∀ other, next.phase.Has other → looper.phase.Has other ∧ other ≠ message)
    (dequeued : ∀ other, next.phase = .dequeued other → looper.phase = .dequeued other) :
    ∃ pooled', next.Shape nodes pooled' ∧
      (∀ other ∈ nodes, next.state.store.contents other = looper.state.store.contents other) ∧
      next.state.queue = looper.state.queue := by
  rcases shape.holds.recycle outside.1 outside.2.1 outside.2.2 with ⟨pooled', recycles, holds⟩
  rw [← state] at recycles holds
  have sameQueued : ∀ other ∈ nodes, next.state.store.messages other =
      looper.state.store.messages other := fun other member =>
    recycles.elsewhere other (ne_of_mem_of_not_mem member outside.1)
  refine ⟨pooled', ?_, fun other member => Store.contents_congr (sameQueued other member),
    recycles.queue⟩
  refine shape.transfer (· = message) holds ?_ ?_ ?_
    (fun other apart _ => recycles.elsewhere other apart) (Nat.le_of_eq recycles.allocated.symm)
    owner (fun other _ has => (phase other has).1) ?_ ?_
  · rw [recycles.queue]
    exact shape.drained
  · intro other member
    rw [sameQueued other member]
    exact shape.targets other member
  · exact fun other => recycles.inside
  · intro other isDequeued
    have has : next.phase.Has other := by
      rw [isDequeued]
      exact rfl
    rw [recycles.elsewhere other (phase other has).2]
    exact shape.target other (dequeued other isDequeued)
  · exact fun other => own_of_nobody nobody fun has => absurd rfl (phase message has).2

theorem return_simulates (shape : looper.Shape nodes pooled) {message : MessageId}
    (isElsewhere : looper.owner message = .elsewhere) :
    looper.Simulates nodes
      { looper with
        state := looper.state.recycle Reentry.quiet.onCancel message
        owner := Function.update looper.owner message .nobody } := by
  have notHas : ∀ other, looper.phase.Has other → other ≠ message := fun other has =>
    shape.not_has (by rw [isElsewhere]; simp) has
  rcases recycled_shape shape (shape.elsewhere message isElsewhere)
    (rfl : ({ looper with
      state := looper.state.recycle Reentry.quiet.onCancel message
      owner := Function.update looper.owner message .nobody } : Looper).state = _)
    (fun other apart => Function.update_of_ne apart _ _) (Function.update_self _ _ _)
    (fun other has => ⟨has, notHas other has⟩) (fun _ dequeued => dequeued) with
    ⟨pooled', shape', contents, queue⟩
  exact simulates_aside pooled' shape' contents (congrArg MessageQueue.mQuitting queue) rfl rfl
    (Nat.le_refl _) rfl rfl rfl

/-! ## The looper thread -/

theorem recycle_simulates (shape : looper.Shape nodes pooled) {message : MessageId}
    (dispatching : looper.phase = .dispatching message) :
    looper.Simulates nodes (looper.recycle message) := by
  have current := shape.current message (by rw [dispatching]; exact rfl)
  rcases recycled_shape shape current.1 (rfl : (looper.recycle message).state = _)
    (fun _ _ => rfl) current.2 (fun _ has => absurd has id) (fun _ dequeued => by cases dequeued)
    with ⟨pooled', shape', contents, queue⟩
  refine ⟨nodes, pooled', shape', ?_, rfl⟩
  have same : (looper.recycle message).mailbox nodes =
      { looper.mailbox nodes with
        reader := .idle
        history := .finished (looper.number message) :: (looper.mailbox nodes).history } := by
    refine Eq.trans (mailbox_eq looper (fun _ _ => rfl) contents) ?_
    rw [mailbox, queue]
    rfl
  rw [same]
  refine .finishes ?_
  rw [mailbox, reader, dispatching]

theorem dispatch_simulates (shape : looper.Shape nodes pooled) {message : MessageId}
    (dequeued : looper.phase = .dequeued message) :
    looper.Simulates nodes (looper.dispatch message) := by
  have current := shape.current message (by rw [dequeued]; exact rfl)
  rw [dispatch]
  cases target : (looper.state.store.messages message).target with
  | none => exact absurd target (shape.target message dequeued)
  | some handler =>
      refine ⟨nodes, pooled, ?_, ?_, rfl⟩
      · refine shape.transfer (· = message) shape.holds shape.drained shape.targets
          (fun _ member => .inr member) (fun _ _ _ => rfl) (Nat.le_refl _) (fun _ _ => rfl)
          (fun other apart has => absurd has.symm apart) (fun _ again => by cases again) ?_
        intro other isMessage
        rw [isMessage]
        refine ⟨fun isSender => ?_, fun isElsewhere => ?_, fun _ => current⟩
        · exact absurd (current.2.symm.trans isSender) (by simp)
        · exact absurd (current.2.symm.trans isElsewhere) (by simp)
      · have reads : (looper.mailbox nodes).reader = .dequeued (looper.number message) := by
          rw [mailbox, reader, dequeued]
        exact .dispatches reads

theorem dequeue_simulates (shape : looper.Shape nodes pooled)
    (dequeueing : looper.phase = .dequeueing) : looper.Simulates nodes looper.dequeue := by
  have isIdle : looper.reader = .idle := by
    rw [reader, dequeueing]
  rcases dequeueMessage_quiet shape.holds looper.uptimeMillis with
    ⟨_, stops⟩ | ⟨timeout, awaits⟩ | ⟨message, rest, st', taken, isOpen, split, isDue, takes⟩
  · rw [dequeue, stops]
    refine ⟨nodes, pooled, ?_, ?_, rfl⟩
    · exact { shape with
        current := fun _ has => absurd has id
        target := fun _ dequeued => by cases dequeued }
    · have same : ({ looper with phase := .returned } : Looper).mailbox nodes =
          looper.mailbox nodes := by
        rw [mailbox, mailbox, isIdle]
        rfl
      exact same ▸ .waits (Nat.le_refl _)
  · rw [dequeue, awaits]
    exact ⟨nodes, pooled, shape, .waits (Nat.le_refl _), rfl⟩
  · rw [dequeue, taken]
    have nodup := shape.holds.represents.nodup
    rw [split, List.nodup_cons] at nodup
    have queued : message ∈ nodes := by
      rw [split]
      exact List.mem_cons_self
    have inRest : ∀ other ∈ rest, other ∈ nodes := by
      intro other member
      rw [split]
      exact List.mem_cons_of_mem _ member
    have stillOpen : st'.queue.mQuitting = false := takes.mQuitting.trans isOpen
    have sameTarget : ∀ other, (st'.store.messages other).target =
        (looper.state.store.messages other).target := fun other =>
      Store.target_congr (congrFun takes.contents other)
    have outside : Outside st' rest pooled message := by
      refine ⟨nodup.1, shape.holds.apart message queued, ?_⟩
      rw [takes.allocated]
      exact shape.holds.represents.allocated message queued
    have nobody : looper.owner message = .nobody := by
      by_contra owned
      exact (shape.outside owned).1 queued
    refine ⟨rest, pooled, ?_, ?_, rfl⟩
    · refine shape.transfer (· = message) takes.holds ?_ ?_ ?_
        (fun other _ notQueued => takes.elsewhere other notQueued)
        (Nat.le_of_eq takes.allocated.symm) (fun _ _ => rfl)
        (fun other apart has => absurd has.symm apart) ?_ ?_
      · exact fun quitting => absurd (stillOpen.symm.trans quitting) Bool.false_ne_true
      · intro other member
        exact (sameTarget other).trans_ne (shape.targets other (inRest other member))
      · exact fun other member => .inr (member.imp_left (inRest other))
      · intro other dequeued
        cases dequeued
        exact (sameTarget message).trans_ne (shape.targets message queued)
      · exact fun other => own_of_nobody nobody fun _ => outside
    · have waiting : (looper.mailbox nodes).waiting =
          (looper.number message, looper.state.dueTime message) ::
            rest.map fun other => (looper.number other, looper.state.dueTime other) := by
        rw [mailbox, split]
        rfl
      have same : ({ looper with
          state := st'
          phase := .dequeued message
          log := .dequeued (looper.number message) :: looper.log } : Looper).mailbox rest =
            { looper.mailbox nodes with
              waiting := rest.map fun other => (looper.number other, looper.state.dueTime other)
              reader := .dequeued (looper.number message)
              history := .dequeued (looper.number message) :: (looper.mailbox nodes).history } := by
        refine Eq.trans (mailbox_eq looper (fun _ _ => rfl)
          fun other _ => congrFun takes.contents other) ?_
        rw [mailbox, takes.mQuitting]
        rfl
      rw [same]
      exact .dequeues isOpen isIdle waiting isDue

/-! ## Sending, removal and quitting -/

/-- Messages have left the queue. -/
theorem drops_shape (shape : looper.Shape nodes pooled) {st : QueueState} {next : Looper}
    {nodes' pooled' : List MessageId} (drops : Drops st nodes pooled next.state nodes' pooled')
    (store : st.store = looper.state.store)
    (drained : next.state.queue.mQuitting = true → nodes' = [])
    (owner : next.owner = looper.owner) (phase : next.phase = looper.phase) :
    next.Shape nodes' pooled' := by
  have elsewhere : ∀ other, other ∉ nodes → next.state.store.messages other =
      looper.state.store.messages other := by
    intro other outside
    rw [drops.elsewhere other outside, store]
  have apart : ∀ other ∈ nodes', other ∉ pooled' := by
    intro other member inPool
    cases drops.reused other inPool with
    | inl before => exact shape.holds.apart other (drops.kept.subset member) before
    | inr left => exact left.2 member
  refine shape.transfer (fun _ => False) ⟨drops.represents, drops.pool, apart⟩ drained ?_ ?_
    (fun other _ outside => elsewhere other outside) ?_
    (fun other _ => congrFun owner other) (fun other _ has => phase ▸ has) ?_
    (fun _ never => never.elim)
  · intro other member
    have contents := drops.contents other member
    rw [store] at contents
    exact (Store.target_congr contents).trans_ne (shape.targets other (drops.kept.subset member))
  · intro other member
    right
    cases member with
    | inl queued => exact .inl (drops.kept.subset queued)
    | inr inPool => exact (drops.reused other inPool).symm.imp_left And.left
  · rw [drops.allocated, store]
  · intro other dequeued
    rw [phase] at dequeued
    have outside := (shape.current other (by rw [dequeued]; exact rfl)).1
    rw [elsewhere other outside.1]
    exact shape.target other dequeued

theorem remove_simulates (shape : looper.Shape nodes pooled) (removal : Removal) :
    looper.Simulates nodes (looper.remove removal) := by
  rcases remove_quiet shape.holds removal with ⟨st', pooled', returned, drops⟩
  have removed : looper.remove removal =
      { looper with
        state := st'
        log := ((nodes.filter (removal.removes looper.state)).map
          fun message => .removed (looper.number message)) ++ looper.log } := by
    rw [remove, returned, queued_eq shape.holds.represents]
  rw [removed]
  generalize keptIs : nodes.filter (fun id => !removal.removes looper.state id) = kept at drops
  refine ⟨kept, pooled', ?_, ?_, rfl⟩
  · refine drops_shape shape drops rfl (fun quitting => ?_) rfl rfl
    have empty := shape.drained (drops.mQuitting.symm.trans quitting)
    rw [← keptIs, empty]
    rfl
  · have all := (List.filter_append_perm (removal.removes looper.state) nodes).map fun message =>
      (looper.number message, looper.state.dueTime message)
    have sublist := drops.kept.map fun message =>
      (looper.number message, looper.state.dueTime message)
    rw [keptIs, List.map_append] at all
    have same : ({ looper with
        state := st'
        log := ((nodes.filter (removal.removes looper.state)).map
          fun message => .removed (looper.number message)) ++ looper.log } : Looper).mailbox kept =
        { looper.mailbox nodes with
          waiting := kept.map fun message =>
            (looper.number message, looper.state.dueTime message)
          history := (((nodes.filter (removal.removes looper.state)).map fun message =>
            (looper.number message, looper.state.dueTime message)).map
              fun message => .removed message.1) ++ (looper.mailbox nodes).history } := by
      refine Eq.trans (mailbox_eq looper (fun _ _ => rfl) drops.contents) ?_
      rw [mailbox, drops.mQuitting, List.map_map]
      rfl
    rw [same]
    exact .removes sublist all

theorem quit_simulates (shape : looper.Shape nodes pooled) :
    looper.Simulates nodes looper.quit := by
  have queued := queued_eq shape.holds.represents
  have none : nodes.filter (fun message => !nodes.contains message) = [] := by
    refine List.filter_eq_nil_iff.mpr fun message member => ?_
    rw [List.contains_iff_mem.mpr member]
    exact Bool.false_ne_true
  rcases quit_quiet shape.holds with
    ⟨_, returned⟩ | ⟨_, quitting, returned⟩ | ⟨_, _, st', pooled', returned, drops⟩
  · have quits : looper.quit = { looper with log := .quit false :: looper.log } := by
      rw [Looper.quit, returned]
      dsimp only
      rw [queued, none]
      rfl
    rw [quits]
    exact ⟨nodes, pooled, { shape with }, .refusesToQuit, rfl⟩
  · have quits : looper.quit = { looper with log := .quit true :: looper.log } := by
      rw [Looper.quit, returned]
      dsimp only
      rw [queued, none]
      rfl
    have empty := shape.drained quitting
    have same : ({ looper with log := .quit true :: looper.log } : Looper).mailbox nodes =
        { looper.mailbox nodes with
          waiting := []
          quitting := true
          history := .quit true :: ((looper.mailbox nodes).waiting.map
            fun message => .dropped message.1) ++ (looper.mailbox nodes).history } := by
      rw [mailbox, mailbox, empty, quitting]
      rfl
    rw [quits]
    refine ⟨nodes, pooled, { shape with }, ?_, rfl⟩
    rw [same]
    exact .quits
  · have after : ({ looper with state := st' } : Looper).queued = [] := queued_eq drops.represents
    have all : nodes.filter (fun message => !([] : List MessageId).contains message) = nodes :=
      List.filter_eq_self.mpr fun _ _ => rfl
    have quits : looper.quit =
        { looper with
          state := st'
          log := .quit true ::
            (nodes.map fun message => .dropped (looper.number message)) ++ looper.log } := by
      rw [Looper.quit, returned]
      dsimp only
      rw [queued, after, all]
    have same : ({ looper with
        state := st'
        log := .quit true ::
          (nodes.map fun message => .dropped (looper.number message)) ++ looper.log } :
            Looper).mailbox [] =
        { looper.mailbox nodes with
          waiting := []
          quitting := true
          history := .quit true :: ((looper.mailbox nodes).waiting.map
            fun message => .dropped message.1) ++ (looper.mailbox nodes).history } := by
      rw [mailbox, mailbox, drops.mQuitting, List.map_map]
      rfl
    rw [quits]
    refine ⟨[], pooled', drops_shape shape drops rfl (fun _ => rfl) rfl rfl, ?_, rfl⟩
    rw [same]
    exact .quits

/-- A quitting queue recycles the message that is sent. -/
theorem refused_simulates (shape : looper.Shape nodes pooled) {message : MessageId}
    (isSender : looper.owner message = .sender) {store : Store} {st' : QueueState}
    {pooled' : List MessageId}
    (others : ∀ other, other ≠ message →
      store.messages other = looper.state.store.messages other)
    (allocated : store.allocated = looper.state.store.allocated)
    (recycles : Recycles { looper.state with store } st' message pooled pooled')
    (holds : st'.Holds nodes pooled') :
    looper.Simulates nodes
      { looper with state := st', owner := Function.update looper.owner message .nobody } := by
  have owned : looper.owner message ≠ .nobody := by
    rw [isSender]
    simp
  have outside := shape.outside owned
  have kept : ∀ other, other ≠ message →
      st'.store.messages other = looper.state.store.messages other := fun other apart =>
    (recycles.elsewhere other apart).trans (others other apart)
  have sameQueued : ∀ other ∈ nodes, st'.store.messages other =
      looper.state.store.messages other := fun other member =>
    kept other (ne_of_mem_of_not_mem member outside.1)
  refine simulates_aside pooled' ?_ (fun other member => Store.contents_congr
    (sameQueued other member)) (congrArg MessageQueue.mQuitting recycles.queue) rfl rfl
    (Nat.le_refl _) rfl rfl rfl
  refine shape.transfer (· = message) holds ?_ ?_ (fun other => recycles.inside)
    (fun other apart _ => kept other apart) ?_ (fun other apart => Function.update_of_ne apart _ _)
    (fun _ _ has => has) ?_ ?_
  · intro quitting
    exact shape.drained ((congrArg MessageQueue.mQuitting recycles.queue).symm.trans quitting)
  · intro other member
    rw [sameQueued other member]
    exact shape.targets other member
  · exact Nat.le_of_eq (recycles.allocated.trans allocated).symm
  · intro other dequeued
    have has : looper.phase.Has other := by
      rw [show looper.phase = _ from dequeued]
      exact rfl
    rw [kept other (shape.not_has owned has)]
    exact shape.target other dequeued
  · exact fun other => own_of_nobody (Function.update_self _ _ _)
      fun has => absurd rfl (shape.not_has owned has)

/-- The looper when a message has been sent to its queue. -/
def afterSend (looper : Looper) (st' : QueueState) (message : MessageId) (when : Nat) : Looper :=
  { looper with
    state := st'
    owner := Function.update looper.owner message .nobody
    number := Function.update looper.number message looper.sends
    sends := looper.sends + 1
    log := .sent looper.sends when :: looper.log }

section Joined

variable {message : MessageId} {store : Store} {st' : QueueState}
  {front back : List MessageId} {when : Nat}

theorem joined_shape (shape : looper.Shape nodes pooled)
    (isSender : looper.owner message = .sender)
    (others : ∀ other, other ≠ message →
      store.messages other = looper.state.store.messages other)
    (allocated : store.allocated = looper.state.store.allocated)
    (targeted : (store.messages message).target ≠ none)
    (isOpen : looper.state.queue.mQuitting = false) (split : nodes = front ++ back)
    (joins : Joins { looper.state with store } nodes pooled message when st'
      (front ++ message :: back)) :
    (looper.afterSend st' message when).Shape (front ++ message :: back) pooled := by
  have owned : looper.owner message ≠ .nobody := by
    rw [isSender]
    simp
  have outside := shape.outside owned
  have stillOpen : st'.queue.mQuitting = false := joins.mQuitting.trans isOpen
  have member_iff : ∀ other, other ∈ front ++ message :: back ↔ other = message ∨ other ∈ nodes := by
    intro other
    rw [split]
    simp only [List.mem_append, List.mem_cons]
    tauto
  refine shape.transfer (· = message) joins.holds ?_ ?_ ?_ ?_ ?_
    (fun other apart => Function.update_of_ne apart _ _) (fun _ _ has => has) ?_ ?_
  · exact fun quitting => absurd (stillOpen.symm.trans quitting) Bool.false_ne_true
  · intro other member
    by_cases same : other = message
    · have stamped : (st'.store.contents message).target = (store.messages message).target := by
        rw [joins.stamped]
        rfl
      rw [same]
      exact Eq.trans_ne stamped targeted
    · have queued := ((member_iff other).mp member).resolve_left same
      have target := shape.targets other queued
      rw [← others other same] at target
      exact (Store.target_congr (joins.contents other same)).trans_ne target
  · intro other member
    cases member with
    | inl queued => exact ((member_iff other).mp queued).imp_right .inl
    | inr inPool => exact .inr (.inr inPool)
  · intro other apart notQueued
    exact (joins.elsewhere other apart notQueued).trans (others other apart)
  · exact Nat.le_of_eq (joins.allocated.trans allocated).symm
  · intro other dequeued
    have has : looper.phase.Has other := by
      rw [show looper.phase = _ from dequeued]
      exact rfl
    have apart := shape.not_has owned has
    have target := shape.target other dequeued
    rw [← others other apart, ← joins.elsewhere other apart (shape.current other has).1.1] at target
    exact target
  · exact fun other => own_of_nobody (Function.update_self _ _ _)
      fun has => absurd rfl (shape.not_has owned has)

theorem joined_mailbox (shape : looper.Shape nodes pooled)
    (isSender : looper.owner message = .sender)
    (others : ∀ other, other ≠ message →
      store.messages other = looper.state.store.messages other)
    (split : nodes = front ++ back)
    (joins : Joins { looper.state with store } nodes pooled message when st'
      (front ++ message :: back)) :
    (looper.afterSend st' message when).mailbox (front ++ message :: back) =
      { looper.mailbox nodes with
        waiting := (front.map fun other => (looper.number other, looper.state.dueTime other)) ++
          (looper.sends, when) ::
            back.map fun other => (looper.number other, looper.state.dueTime other)
        sends := looper.sends + 1
        history := .sent looper.sends when :: (looper.mailbox nodes).history } := by
  have owned : looper.owner message ≠ .nobody := by
    rw [isSender]
    simp
  have outside := shape.outside owned
  have pair : ∀ other, other ∈ front ∨ other ∈ back →
      (Function.update looper.number message looper.sends other, st'.dueTime other) =
        (looper.number other, looper.state.dueTime other) := by
    intro other member
    have queued : other ∈ nodes := by
      rw [split]
      exact List.mem_append.mpr member
    have apart := ne_of_mem_of_not_mem queued outside.1
    refine Prod.ext (Function.update_of_ne apart _ _) ?_
    exact dueTime_congr ((joins.contents other apart).trans
      (Store.contents_congr (others other apart)))
  have sentPair : (Function.update looper.number message looper.sends message,
      st'.dueTime message) = (looper.sends, when) := by
    refine Prod.ext (Function.update_self _ _ _) ?_
    exact congrArg Message.when joins.stamped
  have waiting : (front ++ message :: back).map (fun other =>
      (Function.update looper.number message looper.sends other, st'.dueTime other)) =
        (front.map fun other => (looper.number other, looper.state.dueTime other)) ++
          (looper.sends, when) ::
            back.map fun other => (looper.number other, looper.state.dueTime other) := by
    rw [List.map_append, List.map_cons, sentPair,
      List.map_congr_left fun other member => pair other (.inl member),
      List.map_congr_left fun other member => pair other (.inr member)]
  have sameReader : (looper.afterSend st' message when).reader = looper.reader :=
    reader_congr rfl fun other has => Function.update_of_ne (shape.not_has owned has) _ _
  rw [mailbox, sameReader, afterSend, joins.mQuitting]
  exact congrArg (fun waiting => ({ looper.mailbox nodes with
    waiting
    sends := looper.sends + 1
    history := .sent looper.sends when :: looper.log } : Mailbox)) waiting

/-- An open queue takes the message that is sent at its place in the due order. -/
theorem joined_simulates (shape : looper.Shape nodes pooled)
    (isSender : looper.owner message = .sender)
    (others : ∀ other, other ≠ message →
      store.messages other = looper.state.store.messages other)
    (allocated : store.allocated = looper.state.store.allocated)
    (targeted : (store.messages message).target ≠ none)
    (isOpen : looper.state.queue.mQuitting = false) (split : nodes = front ++ back)
    (joins : Joins { looper.state with store } nodes pooled message when st'
      (front ++ message :: back))
    (first : when = 0 → front = [])
    (place : when ≠ 0 →
      (∀ other ∈ front, ({ looper.state with store } : QueueState).dueTime other ≤ when) ∧
        ∀ other ∈ back, when < ({ looper.state with store } : QueueState).dueTime other) :
    looper.Simulates nodes (looper.afterSend st' message when) := by
  have outside := shape.outside (by rw [isSender]; simp : looper.owner message ≠ .nobody)
  have dueTimes : ∀ other, other ∈ front ∨ other ∈ back →
      ({ looper.state with store } : QueueState).dueTime other = looper.state.dueTime other := by
    intro other member
    have queued : other ∈ nodes := by
      rw [split]
      exact List.mem_append.mpr member
    exact dueTime_congr
      (Store.contents_congr (others other (ne_of_mem_of_not_mem queued outside.1)))
  have splits : (looper.mailbox nodes).waiting =
      (front.map fun other => (looper.number other, looper.state.dueTime other)) ++
        back.map fun other => (looper.number other, looper.state.dueTime other) := by
    rw [mailbox, split, List.map_append]
  refine ⟨front ++ message :: back, pooled,
    joined_shape shape isSender others allocated targeted isOpen split joins, ?_, rfl⟩
  rw [joined_mailbox shape isSender others split joins]
  refine .sends isOpen splits (fun now => ?_) (fun later other member => ?_)
    (fun later other member => ?_)
  · rw [first now]
    rfl
  · rcases List.mem_map.mp member with ⟨queued, inFront, isPair⟩
    rw [← isPair, ← dueTimes queued (.inl inFront)]
    exact (place later).1 queued inFront
  · rcases List.mem_map.mp member with ⟨queued, inBack, isPair⟩
    rw [← isPair, ← dueTimes queued (.inr inBack)]
    exact (place later).2 queued inBack

end Joined

theorem send_simulates (shape : looper.Shape nodes pooled) {message : MessageId}
    (isSender : looper.owner message = .sender) (handler : ObjectId) (when : Nat) :
    looper.Simulates nodes (looper.sendMessageAtTime message handler when) := by
  have outside := shape.outside (by rw [isSender]; simp : looper.owner message ≠ .nobody)
  have fresh := shape.fresh message isSender
  have others : ∀ other, other ≠ message →
      (looper.state.store.modify message fun m =>
        { m with target := some handler }).messages other = looper.state.store.messages other :=
    fun other apart => Function.update_of_ne apart _ _
  have own : (looper.state.store.modify message fun m =>
      { m with target := some handler }).messages message =
        { looper.state.store.messages message with target := some handler } :=
    Function.update_self _ _ _
  have holds := shape.holds.modify outside.1 outside.2.1 fun m => { m with target := some handler }
  have allocated : (looper.state.store.modify message fun m =>
      { m with target := some handler }).allocated = looper.state.store.allocated := rfl
  rw [sendMessageAtTime]
  dsimp only
  generalize looper.state.store.modify message (fun m =>
    { m with target := some handler }) = store at others own holds allocated
  have targeted : (store.messages message).target ≠ none := by
    rw [own]
    exact Option.some_ne_none handler
  have fresh' : ({ looper.state with store } : QueueState).Fresh message := by
    refine ⟨?_, ?_, ?_, allocated ▸ fresh.known⟩
    · exact (congrArg (fun m : Message => m.unlinked.isInUse) own).trans fresh.free
    · exact (congrArg Message.nextMessage own).trans fresh.next
    · exact (congrArg Message.prevMessage own).trans fresh.prev
  rcases enqueueMessage_quiet holds fresh' targeted when with
    ⟨_, st', pooled', returned, recycles, holds'⟩ |
      ⟨isOpen, st', front, back, returned, split, joins, first, place⟩
  · rw [returned]
    exact refused_simulates shape isSender others allocated recycles holds'
  · rw [returned]
    exact joined_simulates shape isSender others allocated targeted isOpen split joins first place

theorem step_simulates (shape : looper.Shape nodes pooled) {action : Action} {next : Looper}
    (taken : looper.step action = some next) : looper.Simulates nodes next := by
  cases action with
  | obtains =>
      cases taken
      exact obtain_simulates shape
  | fills message payload =>
      rw [step] at taken
      split at taken
      case isTrue has =>
        cases taken
        exact fill_simulates shape payload has
      case isFalse => cases taken
  | sends message handler when =>
      rw [step] at taken
      split at taken
      case isTrue isSender =>
        cases taken
        exact send_simulates shape isSender handler when
      case isFalse => cases taken
  | lends message =>
      rw [step] at taken
      split at taken
      case isTrue isSender =>
        cases taken
        exact lend_simulates shape isSender
      case isFalse => cases taken
  | changes message changed =>
      rw [step] at taken
      split at taken
      case isTrue isElsewhere =>
        cases taken
        have outside := shape.elsewhere message isElsewhere
        refine modify_simulates shape outside (fun _ => changed) (fun dequeued => ?_)
          (fun isSender => absurd (isElsewhere.symm.trans isSender) (by simp))
        have owner := (shape.current message (by rw [dequeued]; exact rfl)).2
        exact absurd (isElsewhere.symm.trans owner) (by simp)
      case isFalse => cases taken
  | returns message =>
      rw [step] at taken
      split at taken
      case isTrue isElsewhere =>
        cases taken
        exact return_simulates shape isElsewhere
      case isFalse => cases taken
  | ticks millis =>
      cases taken
      exact simulates_aside pooled { shape with } (fun _ _ => rfl) rfl rfl rfl
        (Nat.le_add_right _ _) rfl rfl rfl
  | dequeues =>
      rw [step] at taken
      split at taken
      case h_1 dequeueing =>
        cases taken
        exact dequeue_simulates shape dequeueing
      case h_2 => cases taken
  | dispatches =>
      rw [step] at taken
      split at taken
      case h_1 message dequeued =>
        cases taken
        exact dispatch_simulates shape dequeued
      case h_2 => cases taken
  | recycles =>
      rw [step] at taken
      split at taken
      case h_1 message dispatching =>
        cases taken
        exact recycle_simulates shape dispatching
      case h_2 => cases taken
  | removes removal =>
      cases taken
      exact remove_simulates shape removal
  | quits =>
      cases taken
      exact quit_simulates shape

end Steps

/-! ## Whole runs -/

/-- Where the message of a number is. -/
def Stands (looper : Looper) (number : Nat) : Mailbox.Standing → Prop
  | .queued => ∃ message, looper.state.Queued message ∧ looper.number message = number
  | .dispatching => ∃ message, looper.phase.Has message ∧ looper.number message = number
  | .finished => .finished number ∈ looper.log
  | .removed => .removed number ∈ looper.log
  | .dropped => .dropped number ∈ looper.log

/-- What holds of all messages that were sent to a looper. -/
structure Accounts (looper : Looper) : Prop where
  raised : looper.raised = none
  stands : ∀ number due, .sent number due ∈ looper.log →
    ∃ stands, looper.Stands number stands ∧
      ∀ other, looper.Stands number other → other = stands
  once : ∀ later number time earlier, looper.log = later ++ .dispatched number time :: earlier →
    ∀ other, .dispatched number other ∉ earlier
  due : ∀ number time due, .dispatched number time ∈ looper.log →
    .sent number due ∈ looper.log → due ≤ time
  removed : ∀ later number earlier, looper.log = later ++ .removed number :: earlier →
    ∀ time, .dispatched number time ∉ later
  quit : ∀ later earlier, looper.log = later ++ .quit true :: earlier →
    ∀ number time, .dispatched number time ∈ later → .dequeued number ∈ earlier
  ordered : ∀ later number time earlier, looper.log = later ++ .dispatched number time :: earlier →
    ∀ first firstDue due, Mailbox.SentBefore looper.log first firstDue number due →
      0 < firstDue → firstDue ≤ due →
        (∃ time, .dispatched first time ∈ earlier) ∨ .removed first ∈ earlier

/-- The messages of the looper are those of a mailbox that agrees with its history. -/
def Inv (looper : Looper) : Prop :=
  ∃ nodes pooled, looper.Shape nodes pooled ∧ (looper.mailbox nodes).Inv ∧ looper.raised = none

theorem initial_inv (quitAllowed : Bool) : (initial quitAllowed).Inv := by
  refine ⟨[], [], ?_, ?_, rfl⟩
  · constructor
    · exact ⟨⟨Linked.empty, List.Pairwise.nil, fun _ member => absurd member List.not_mem_nil,
        fun _ member => absurd member List.not_mem_nil⟩, Store.Pooled.initial,
        fun _ member => absurd member List.not_mem_nil⟩
    · exact fun _ => rfl
    · exact fun _ member => absurd member List.not_mem_nil
    · intro message isSender
      cases isSender
    · intro message isElsewhere
      cases isElsewhere
    · exact fun _ has => absurd has id
    · intro message dequeued
      cases dequeued
  · exact Mailbox.new_inv rfl rfl rfl

theorem step_inv {looper next : Looper} (inv : looper.Inv) {action : Action}
    (taken : looper.step action = some next) : next.Inv := by
  rcases inv with ⟨nodes, pooled, shape, agrees, raised⟩
  rcases step_simulates shape taken with ⟨nodes', pooled', shape', step, same⟩
  exact ⟨nodes', pooled', shape', agrees.step step, same.trans raised⟩

theorem Inv.stands_iff {looper : Looper} {nodes pooled : List MessageId}
    (shape : looper.Shape nodes pooled) (number : Nat) (stands : Mailbox.Standing) :
    looper.Stands number stands ↔ (looper.mailbox nodes).Stands number stands := by
  cases stands with
  | queued =>
      constructor
      · intro queued
        rcases queued with ⟨message, reached, same⟩
        have member := (shape.holds.represents.queued_iff message).mp reached
        exact ⟨_, List.mem_map.mpr ⟨message, member, Prod.ext same rfl⟩⟩
      · intro waits
        rcases waits with ⟨due, member⟩
        rcases List.mem_map.mp member with ⟨message, queued, same⟩
        exact ⟨message, (shape.holds.represents.queued_iff message).mpr queued,
          congrArg Prod.fst same⟩
  | dispatching =>
      change _ ↔ looper.reader.Holds number
      rw [Stands, reader]
      cases looper.phase with
      | dequeueing => exact ⟨fun has => has.elim fun _ both => both.1, fun never => never.elim⟩
      | returned => exact ⟨fun has => has.elim fun _ both => both.1, fun never => never.elim⟩
      | dequeued message =>
          constructor
          · intro has
            rcases has with ⟨other, isMessage, same⟩
            rw [← same, ← isMessage]
            exact rfl
          · exact fun same => ⟨message, rfl, same⟩
      | dispatching message =>
          constructor
          · intro has
            rcases has with ⟨other, isMessage, same⟩
            rw [← same, ← isMessage]
            exact rfl
          · exact fun same => ⟨message, rfl, same⟩
  | finished => exact Iff.rfl
  | removed => exact Iff.rfl
  | dropped => exact Iff.rfl

theorem Inv.accounts {looper : Looper} (inv : looper.Inv) : looper.Accounts := by
  rcases inv with ⟨nodes, pooled, shape, agrees, raised⟩
  have legal : Mailbox.Legal looper.log := agrees.legal
  constructor
  case raised => exact raised
  case stands =>
    intro number due sent
    rcases agrees.stands_once sent with ⟨stands, here, only⟩
    exact ⟨stands, (Inv.stands_iff shape number stands).mpr here, fun other also =>
      only other ((Inv.stands_iff shape number other).mp also)⟩
  case once =>
    intro later number time earlier split
    rw [split] at legal
    exact legal.dispatched_once
  case due => exact fun number time due dispatched sent => legal.due_le dispatched sent
  case removed =>
    intro later number earlier split
    rw [split] at legal
    exact legal.not_dispatched_of_removed
  case quit =>
    intro later earlier split number time dispatched
    rw [split] at legal
    exact legal.dequeued_of_quit dispatched
  case ordered =>
    intro later number time earlier split first firstDue due before positive noLater
    rw [split] at legal before
    exact legal.dispatched_before before positive noLater

/-- In every run of a looper, a message that was sent is queued, dispatched, finished, removed or
dropped, is dispatched once and in time, and is not dispatched after its removal or, unless it was
dequeued before, after the looper has quit. -/
theorem always_accounts (quitAllowed : Bool) (actions : List Action) :
    Always step Accounts (initial quitAllowed) actions := by
  have runs : ∀ looper : Looper, looper.Inv → Always step Accounts looper actions := by
    induction actions with
    | nil => exact fun looper inv => inv.accounts
    | cons action actions ih =>
        exact fun looper inv => ⟨inv.accounts, fun next taken => ih next (step_inv inv taken)⟩
  exact runs _ (initial_inv quitAllowed)

/-- A looper that is not allowed to quit dispatches what is queued after `quit` has returned. -/
theorem dispatches_after_quit :
    ¬∀ (quitAllowed : Bool) (actions : List Action) (looper : Looper),
      runAll step (initial quitAllowed) actions = some looper →
        ∀ later done earlier, looper.log = later ++ .quit done :: earlier →
          ∀ number time, .dispatched number time ∈ later → .dequeued number ∈ earlier := by
  intro dequeued
  have member := dequeued false [.obtains, .sends 0 7 0, .quits, .dequeues, .dispatches] _ rfl
    [.dispatched 0 0, .dequeued 0] false [.sent 0 0] rfl 0 0 List.mem_cons_self
  exact absurd member (by decide)

end Looper

end Mindroid
