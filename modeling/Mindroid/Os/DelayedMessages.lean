import Mathlib.Algebra.Group.Nat.Defs
import Mathlib.Logic.Relation
import Mindroid.Os.Handler
import Mindroid.Os.QueueFilter

/-!
# Delayed messages

A message that waits in a queue keeps its due time until it leaves the queue, whatever happens to
the queue meanwhile, and it is not dequeued before it is due.
-/

set_option autoImplicit false

namespace Mindroid

open Foundation

namespace QueueState

/-- The queue goes through any steps, and the message stays in it. -/
def StaysQueued (message : MessageId) : QueueState → QueueState → Prop :=
  Relation.ReflTransGen fun st st' => Step st st' ∧ st'.Queued message

section Waiting

variable {st st' : QueueState} {nodes : List MessageId} {message : MessageId}

theorem calm_quiet : Calm Reentry.quiet.onCancel :=
  fun _ _ => ⟨rfl, fun _ _ => rfl, Nat.le_refl _⟩

theorem contents_dequeueMessage (represents : Represents st nodes) (now : Nat) :
    (st.dequeueMessage now).1.store.contents = st.store.contents := by
  rw [QueueState.dequeueMessage]
  split
  · rfl
  · split
    · rfl
    · next head isHead =>
        split
        · rfl
        · cases nodes with
          | nil =>
              rw [represents.linked.head_eq] at isHead
              cases isHead
          | cons first rest =>
              rw [represents.linked.head_eq] at isHead
              cases isHead
              have represents' : Represents st ([] ++ head :: rest) := represents
              simp only
              rw [Store.contents_setNext, Store.contents_setPrev,
                (unlinkHead_relinks represents').contents]

/-- No step changes a message that is in the queue before and after it. -/
theorem contents_step (represents : Represents st nodes) (drained : st.queue.mQuitting = true →
    nodes = []) (member : message ∈ nodes) (step : Step st st') (queued : st'.Queued message) :
    st'.store.contents message = st.store.contents message := by
  cases step with
  | elsewhere outside =>
      exact congrArg Message.unlinked
        (outside.messages message ((represents.queued_iff message).mpr member))
  | @enqueueMessage sent when _ _ fresh returned =>
      have absent := represents.not_mem_of_free fresh.free
      have apart : message ≠ sent := ne_of_mem_of_not_mem member absent
      cases quitting : st.queue.mQuitting with
      | true =>
          rw [drained quitting] at member
          exact absurd member List.not_mem_nil
      | false =>
          by_cases untargeted : (st.store.messages sent).target = none
          · rw [QueueState.enqueueMessage, if_pos untargeted] at returned
            cases returned
          · rcases represents.enqueueMessage_place quitting
              ⟨untargeted, fresh.free, fresh.next, fresh.prev, fresh.known⟩ when with
              ⟨_, _, _, returned', relinks, _⟩
            cases returned.symm.trans returned'
            rw [relinks.contents]
            exact (congrFun (Store.contents_stamp _ _ _) message).trans
              (Function.update_of_ne apart _ _)
  | dequeueMessage now => exact congrFun (contents_dequeueMessage represents now) message
  | @remove removal _ _ returned =>
      rcases removeTraced_spec (stepwise_leaves calm_quiet) represents removal with
        ⟨_, returned', leaves⟩
      have erased := erase_removeTraced Reentry.quiet.onCancel st removal
      rw [returned', returned] at erased
      cases erased
      exact leaves.contents message ((leaves.represents.queued_iff message).mp queued)
  | quit returned =>
      rcases represents.quit with ⟨_, _, returned', same | emptied⟩
      · cases returned.symm.trans returned'
        rw [same]
      · cases returned.symm.trans returned'
        exact absurd ((emptied.queued_iff message).mp queued) List.not_mem_nil

/-- What stays in the queue is not changed. -/
theorem StaysQueued.contents (stays : StaysQueued message st st') (wellFormed : WellFormed st)
    (queued : st.Queued message) :
    WellFormed st' ∧ st'.Queued message ∧
      st'.store.contents message = st.store.contents message := by
  induction stays with
  | refl => exact ⟨wellFormed, queued, rfl⟩
  | tail _ taken ih =>
      rcases ih with ⟨⟨nodes, represents, drained⟩, before, same⟩
      have member := (represents.queued_iff message).mp before
      refine ⟨wellFormed_step ⟨nodes, represents, drained⟩ taken.1, taken.2, ?_⟩
      exact (contents_step represents drained member taken.1 taken.2).trans same

/-- A message that has waited in the queue is dequeued when it is due. -/
theorem StaysQueued.due_le (stays : StaysQueued message st st') (wellFormed : WellFormed st)
    (queued : st.Queued message) {now : Nat}
    (dequeued : (st'.dequeueMessage now).2 = .message message) : st.dueTime message ≤ now := by
  rcases stays.contents wellFormed queued with ⟨⟨nodes, represents, _⟩, _, same⟩
  rcases represents.dequeueMessage now with ⟨_, none⟩ | ⟨other, _, taken, _, due, _⟩
  · exact absurd dequeued (none message)
  · have isMessage : other = message := Dequeued.message.inj (taken.symm.trans dequeued)
    subst isMessage
    have sameDue : st'.dueTime other = st.dueTime other := congrArg Message.when same
    exact sameDue ▸ due

end Waiting

end QueueState

namespace Loopers

open QueueState

/-- A message that is due at the given time has joined the queue of the handler, and as long as
it is there it is not dequeued earlier. -/
def Delays (handler : ObjectId) (due : Nat) (st st' : Loopers) : Prop :=
  ∃ nodes front back message,
    Represents (st.queueState (st.mMessageQueue handler)) nodes ∧ nodes = front ++ back ∧
    Represents (st'.queueState (st.mMessageQueue handler)) (front ++ message :: back) ∧
    (st'.store.messages message).when = due ∧
    ∀ later now, StaysQueued message (st'.queueState (st.mMessageQueue handler)) later →
      (later.dequeueMessage now).2 = .message message → due ≤ now

/-- The queue has these messages, the pool has those, and the queue is open. -/
structure Open (st : Loopers) (queue : Nat) (nodes pooled : List MessageId) : Prop where
  holds : (st.queueState queue).Holds nodes pooled
  running : (st.queues queue).mQuitting = false

/-- A message has been obtained and got its contents. -/
structure Obtained (st : Loopers) (queue : Nat) (nodes : List MessageId) (contents : Message)
    (message : MessageId) (st' : Loopers) (pooled' : List MessageId) : Prop where
  isOpen : st'.Open queue nodes pooled'
  fresh : (st'.queueState queue).Fresh message
  carries : st'.store.messages message = contents
  others : ∀ other ∈ nodes, st'.store.messages other = st.store.messages other
  queues : st'.queues = st.queues
  mMessageQueue : st'.mMessageQueue = st.mMessageQueue
  uptimeMillis : st'.uptimeMillis = st.uptimeMillis

/-- A message has been put into the queue. -/
structure Sent (st : Loopers) (queue : Nat) (nodes : List MessageId) (contents : Message)
    (message : MessageId) (st' : Loopers) (nodes' pooled' : List MessageId) : Prop where
  isOpen : st'.Open queue nodes' pooled'
  place : ∃ front back, nodes = front ++ back ∧ nodes' = front ++ message :: back
  carries : st'.store.contents message = contents
  others : ∀ other ∈ nodes, st'.store.contents other = st.store.contents other
  mMessageQueue : st'.mMessageQueue = st.mMessageQueue
  uptimeMillis : st'.uptimeMillis = st.uptimeMillis

section Sending

variable {st : Loopers} {queue : Nat} {nodes pooled : List MessageId}

/-- Fields of a message that the queue does not care about. -/
def Unlinked (change : Message → Message) : Prop :=
  ∀ message, (change message).flags = message.flags ∧
    (change message).nextMessage = message.nextMessage ∧
      (change message).prevMessage = message.prevMessage

theorem Open.getMessage (isOpen : st.Open queue nodes pooled) {change : Message → Message}
    (unlinked : Unlinked change) :
    ∃ message st' pooled', Throwing.outcome (Handler.getMessage change) st = (.ok message, st') ∧
      st.Obtained queue nodes (change {}) message st' pooled' := by
  rcases isOpen.holds.obtain with
    ⟨pooled', holds, _, notQueued, absent, _, isNew, others, _, known⟩
  have assigned : (st.store.obtain.1.modify st.store.obtain.2 change).messages
      st.store.obtain.2 = change {} :=
    (Function.update_self _ _ _).trans (congrArg change isNew)
  have same : ∀ other ∈ nodes,
      (st.store.obtain.1.modify st.store.obtain.2 change).messages other =
        st.store.messages other := by
    intro other member
    have apart : other ≠ st.store.obtain.2 := ne_of_mem_of_not_mem member notQueued
    exact (Function.update_of_ne apart _ _).trans (others other apart)
  refine ⟨st.store.obtain.2,
    { st with store := st.store.obtain.1.modify st.store.obtain.2 change }, pooled', rfl, ?_⟩
  constructor
  · exact ⟨holds.modify notQueued absent change, isOpen.running⟩
  · have kept := unlinked {}
    constructor
    · refine (congrArg (fun m : Message => m.unlinked.isInUse) assigned).trans ?_
      change ((change {}).flags &&& flagInUse == flagInUse) = false
      rw [kept.1]
      decide
    · exact (congrArg Message.nextMessage assigned).trans kept.2.1
    · exact (congrArg Message.prevMessage assigned).trans kept.2.2
    · exact known
  · exact assigned
  · exact same
  · rfl
  · rfl
  · rfl

theorem insertMessage_of_accepted {st st' : QueueState} {message : MessageId} {when : Nat}
    (accepted : st.enqueueMessage Reentry.quiet.onCancel message when = .ok (st', true)) :
    (st.store.messages message).target ≠ none ∧
      (st.store.messages message).isInUse = false ∧ st.queue.mQuitting = false ∧
        st.insertMessage message when = .ok st' := by
  rw [QueueState.enqueueMessage] at accepted
  split at accepted
  · cases accepted
  · split at accepted
    · cases accepted
    · split at accepted
      · cases accepted
      · next targeted free running =>
          refine ⟨targeted, Bool.eq_false_iff.mpr free, Bool.eq_false_iff.mpr running, ?_⟩
          cases inserted : st.insertMessage message when with
          | error raised =>
              rw [inserted] at accepted
              cases accepted
          | ok st'' =>
              rw [inserted] at accepted
              cases accepted
              rfl

/-- What a message contains once it is sent. -/
def sent (contents : Message) (handler : ObjectId) (time : UInt64) : Message :=
  { { contents with target := some handler }.markInUse with when := time.toNat }

theorem Open.assign (isOpen : st.Open queue nodes pooled) {message : MessageId}
    (free : (st.store.contents message).isInUse = false) (change : Message → Message) :
    (st.assign message change).Open queue nodes pooled := by
  have absent : message ∉ nodes := isOpen.holds.represents.not_mem_of_free free
  have notPooled : message ∉ pooled := isOpen.holds.not_pooled_of_free free
  exact ⟨isOpen.holds.modify absent notPooled change, isOpen.running⟩

theorem Open.enqueueMessage (isOpen : st.Open queue nodes pooled) {message : MessageId}
    (fresh : (st.queueState queue).Fresh message)
    (targeted : (st.store.messages message).target ≠ none) (onCancel : OnCancel)
    (time : UInt64) :
    ∃ st' nodes',
      Throwing.outcome (Handler.enqueueMessage onCancel queue message time) st = (.ok true, st') ∧
      st.Sent queue nodes { (st.store.contents message).markInUse with when := time.toNat }
        message st' nodes' pooled := by
  rcases enqueueMessage_quiet isOpen.holds fresh targeted time.toNat with
    ⟨quitting, _⟩ | ⟨_, after, front, back, accepted, split, joins, _⟩
  · exact absurd (isOpen.running.symm.trans quitting) Bool.false_ne_true
  · rcases insertMessage_of_accepted accepted with ⟨_, free, running, inserted⟩
    have absent : message ∉ nodes := isOpen.holds.represents.not_mem_of_free fresh.free
    have isFree : (st.store.messages message).isInUse = false := free
    have isRunning : (st.queues queue).mQuitting = false := running
    refine ⟨st.update queue after, front ++ message :: back, ?_, ?_⟩
    · rw [Throwing.outcome_eq_iff, Handler.enqueueMessage, Throwing.leads_bind,
        Throwing.leads_get, if_neg targeted, isFree, if_neg Bool.false_ne_true, isRunning,
        if_neg Bool.false_ne_true, inserted]
      exact ⟨rfl, rfl⟩
    · constructor
      · refine ⟨(queueState_update st queue after).symm ▸ joins.holds, ?_⟩
        refine (congrArg MessageQueue.mQuitting (Function.update_self _ _ _)).trans ?_
        exact joins.mQuitting.trans running
      · exact ⟨front, back, split, rfl⟩
      · exact joins.stamped
      · exact fun other member => joins.contents other (ne_of_mem_of_not_mem member absent)
      · rfl
      · rfl

/-- An open queue takes a message of its handler. -/
theorem Open.sendMessageAtTime (isOpen : st.Open queue nodes pooled) {message : MessageId}
    (fresh : (st.queueState queue).Fresh message) {handler : ObjectId}
    (here : st.mMessageQueue handler = queue) (onCancel : OnCancel) (time : UInt64) :
    ∃ st' nodes',
      Throwing.outcome (Handler.sendMessageAtTime onCancel handler message time) st =
        (.ok true, st') ∧
      st.Sent queue nodes (sent (st.store.contents message) handler time) message st' nodes'
        pooled := by
  have free : (st.store.contents message).isInUse = false := fresh.free
  have absent : message ∉ nodes := isOpen.holds.represents.not_mem_of_free free
  have written : (st.assign message fun m => { m with target := some handler }).store.messages
      message = { st.store.messages message with target := some handler } :=
    Function.update_self _ _ _
  have contents : (st.assign message fun m => { m with target := some handler }).store.contents
      message = { st.store.contents message with target := some handler } :=
    congrArg Message.unlinked written
  have fresh' : ((st.assign message fun m =>
      { m with target := some handler }).queueState queue).Fresh message := by
    constructor
    · exact (congrArg Message.isInUse contents).trans free
    · exact (congrArg Message.nextMessage written).trans fresh.next
    · exact (congrArg Message.prevMessage written).trans fresh.prev
    · exact fresh.known
  rcases (isOpen.assign free fun m => { m with target := some handler }).enqueueMessage fresh'
      (fun none => by rw [written] at none; cases none) onCancel time with
    ⟨st', nodes', returned, joined⟩
  refine ⟨st', nodes', ?_, ?_⟩
  · rw [Throwing.outcome_eq_iff, Handler.sendMessageAtTime, Throwing.leads_bind,
      Throwing.leads_modify, Throwing.leads_bind, Throwing.leads_get]
    rw [← here] at returned
    exact Throwing.outcome_eq_iff.mp returned
  · constructor
    · exact joined.isOpen
    · exact joined.place
    · rw [joined.carries, contents]
      rfl
    · intro other member
      refine (joined.others other member).trans (congrArg Message.unlinked ?_)
      exact Function.update_of_ne (ne_of_mem_of_not_mem member absent) _ _
    · exact joined.mMessageQueue
    · exact joined.uptimeMillis

/-- What the delayed calls send: a message of their own, at the given time. -/
theorem Open.getAndSend (isOpen : st.Open queue nodes pooled) {change : Message → Message}
    (unlinked : Unlinked change) {handler : ObjectId} (here : st.mMessageQueue handler = queue)
    (onCancel : OnCancel) (delayMillis : UInt32) :
    ∃ message st' nodes' pooled',
      Throwing.outcome (do
        Handler.sendMessageDelayed onCancel handler (← Handler.getMessage change) delayMillis) st =
          (.ok true, st') ∧
      st.Sent queue nodes (sent (change {}).unlinked handler
        (st.uptimeMillis + delayMillis.toUInt64)) message st' nodes' pooled' := by
  rcases isOpen.getMessage unlinked with ⟨message, st₁, pooled', got, obtained⟩
  rcases obtained.isOpen.sendMessageAtTime obtained.fresh
      ((congrFun obtained.mMessageQueue handler).trans here) onCancel
      (st.uptimeMillis + delayMillis.toUInt64) with
    ⟨st', nodes', returned, sends⟩
  have contents : st₁.store.contents message = (change {}).unlinked :=
    congrArg Message.unlinked obtained.carries
  refine ⟨message, st', nodes', pooled', ?_, ?_⟩
  · rw [Throwing.outcome_eq_iff, Throwing.leads_bind, Throwing.leads_returned got,
      Handler.sendMessageDelayed, Throwing.leads_bind, Throwing.leads_get, obtained.uptimeMillis]
    exact Throwing.outcome_eq_iff.mp returned
  · rw [contents] at sends
    constructor
    · exact sends.isOpen
    · exact sends.place
    · exact sends.carries
    · exact fun other member => (sends.others other member).trans
        (congrArg Message.unlinked (obtained.others other member))
    · exact sends.mMessageQueue.trans obtained.mMessageQueue
    · exact sends.uptimeMillis.trans obtained.uptimeMillis

theorem Open.postDelayed (isOpen : st.Open queue nodes pooled) {handler : ObjectId}
    (here : st.mMessageQueue handler = queue) (onCancel : OnCancel) (runnable : Option ObjectId)
    (delayMillis : UInt64) :
    ∃ message st' nodes' pooled',
      Throwing.outcome (Handler.postDelayed onCancel handler runnable delayMillis) st =
          (.ok runnable, st') ∧
      st.Sent queue nodes (sent { callback := runnable } handler
        (st.uptimeMillis + delayMillis.toUInt32.toUInt64)) message st' nodes' pooled' := by
  have unlinked : Unlinked fun m => { m with callback := runnable } :=
    fun _ => ⟨rfl, rfl, rfl⟩
  rcases isOpen.getAndSend unlinked here onCancel delayMillis.toUInt32 with
    ⟨message, st', nodes', pooled', returned, sends⟩
  refine ⟨message, st', nodes', pooled', ?_, sends⟩
  rw [Throwing.outcome_eq_iff, Handler.postDelayed, Throwing.leads_bind]
  have leads := Throwing.outcome_eq_iff.mp returned
  rw [Throwing.leads_bind] at leads
  refine leads.mono (fun _ _ both => ?_) (fun _ _ => id)
  rw [Throwing.leads_bind]
  refine both.mono (fun _ _ same => ?_) (fun _ _ => id)
  rw [Throwing.leads_pure, same.1, same.2]
  exact ⟨rfl, rfl⟩

theorem Open.sendEmptyMessageDelayed (isOpen : st.Open queue nodes pooled) {handler : ObjectId}
    (here : st.mMessageQueue handler = queue) (onCancel : OnCancel) (what : Int32)
    (delayMillis : UInt64) :
    ∃ message st' nodes' pooled',
      Throwing.outcome (Handler.sendEmptyMessageDelayed onCancel handler what delayMillis) st =
          (.ok true, st') ∧
      st.Sent queue nodes (sent { what } handler
        (st.uptimeMillis + delayMillis.toUInt32.toUInt64)) message st' nodes' pooled' :=
  have unlinked : Unlinked fun m => { m with what } := fun _ => ⟨rfl, rfl, rfl⟩
  isOpen.getAndSend unlinked here onCancel delayMillis.toUInt32

/-- The message that was sent is the one that has joined the queue. -/
theorem Sent.delays_iff {handler : ObjectId}
    (isOpen : st.Open (st.mMessageQueue handler) nodes pooled)
    {contents : Message} {message : MessageId} {st' : Loopers} {nodes' pooled' : List MessageId}
    (sends : st.Sent (st.mMessageQueue handler) nodes contents message st' nodes' pooled')
    (due : Nat) : Delays handler due st st' ↔ contents.when = due := by
  have carries : (st'.store.contents message).when = contents.when :=
    congrArg Message.when sends.carries
  rcases sends.place with ⟨front, back, split, joined⟩
  have represents' := sends.isOpen.holds.represents
  constructor
  · rintro ⟨before, front', back', other, represented, split', represented', isDue, _⟩
    have sameBefore : before = nodes :=
      represented.linked.forward.unique isOpen.holds.represents.linked.forward
    have sameAfter : front' ++ other :: back' = nodes' :=
      represented'.linked.forward.unique represents'.linked.forward
    have absent : other ∉ nodes := by
      rw [← sameBefore, split']
      exact (List.nodup_cons.mp (List.nodup_middle.mp represented'.nodup)).1
    have member : other ∈ front ++ message :: back := by
      rw [← joined, ← sameAfter]
      exact List.mem_append_right _ List.mem_cons_self
    have isMessage : other = message := by
      rw [split] at absent
      simp only [List.mem_append, List.mem_cons] at member absent
      tauto
    rw [← carries, ← isMessage]
    exact isDue
  · rintro rfl
    rw [joined] at represents'
    refine ⟨nodes, front, back, message, isOpen.holds.represents, split, represents', carries,
      fun later now stays dequeued => ?_⟩
    have wellFormed : WellFormed (st'.queueState (st.mMessageQueue handler)) :=
      ⟨_, represents', fun quitting =>
        absurd (sends.isOpen.running.symm.trans quitting) Bool.false_ne_true⟩
    have queued := (represents'.queued_iff message).mpr
      (List.mem_append_right _ List.mem_cons_self)
    have isDue := stays.due_le wellFormed queued dequeued
    exact carries ▸ isDue

end Sending

/-- A delay that goes through the parameter of `sendMessageDelayed` keeps its low 32 bits. -/
theorem delay_eq_iff {now delay : UInt64} (fits : now.toNat + delay.toNat < 2 ^ 64) :
    (now + delay.toUInt32.toUInt64).toNat = now.toNat + delay.toNat ↔ delay.toNat < 2 ^ 32 := by
  have low : delay.toUInt32.toUInt64.toNat = delay.toNat % 2 ^ 32 := by
    rw [UInt32.toNat_toUInt64, UInt64.toNat_toUInt32]
  rw [UInt64.toNat_add, low, Nat.mod_eq_of_lt (Nat.lt_of_le_of_lt
    (Nat.add_le_add_left (Nat.mod_le _ _) _) fits)]
  omega

end Loopers

end Mindroid
