import Mindroid.Os.Handler

/-!
# Sends that are rejected

A queue rejects a message that has no target or is in use.  The queue itself writes nothing then,
but a handler has already written itself into the message, which may be waiting in a queue.
-/

set_option autoImplicit false

namespace Mindroid

open Foundation Throwing

namespace Loopers

/-- The message is reached from the head of a queue. -/
def Queued (st : Loopers) (message : MessageId) : Prop :=
  ∃ queue nodes stop,
    LinkPath st.store.next (st.queues queue).mHeadMessage nodes stop ∧ message ∈ nodes

/-- All queues and all messages in them are as they were. -/
structure Kept (st st' : Loopers) : Prop where
  queues : st'.queues = st.queues
  messages : ∀ message, st.Queued message →
    st'.store.messages message = st.store.messages message

theorem Kept.refl (st : Loopers) : Kept st st :=
  ⟨rfl, fun _ _ => rfl⟩

end Loopers

/-- The queue throws because of the message. -/
def Raised.Rejects (raised : Raised) : Prop :=
  raised = .illegalArgumentException "Message must have a target" ∨
    raised = .illegalStateException "Message is already in use"

theorem Raised.nullPointer_not_rejects : ¬Raised.nullPointer.Rejects := by
  rintro (same | same) <;> cases same

theorem Raised.outOfFuel_not_rejects : ¬Raised.outOfFuel.Rejects := by
  rintro (same | same) <;> cases same

namespace Send

/-- A call that is rejected changes nothing that is queued. -/
def KeepsQueued (onCancel : Loopers.OnCancel) (send : Send) (st : Loopers) : Prop :=
  Leads (send.call onCancel) (fun _ _ => True)
    (fun raised st' => raised.Rejects → st.Kept st') st

/-- The handler and the message that a handler is called with. -/
def given : Send → Option (ObjectId × MessageId)
  | sendMessageAtTime handler message _ => some (handler, message)
  | sendMessageDelayed handler message _ => some (handler, message)
  | sendMessage handler message => some (handler, message)
  | _ => none

/-- A handler is to send a message that is in use and waits for another handler. -/
def Redirects (send : Send) (st : Loopers) : Prop :=
  ∃ handler message, send.given = some (handler, message) ∧
    (st.store.messages message).isInUse = true ∧ st.Queued message ∧
    (st.store.messages message).target ≠ some handler

end Send

/-! ## What the queue rejects -/

theorem QueueState.walkBack_not_rejects {messages : MessageId → Message} {when fuel : Nat}
    {start : MessageId} {raised : Raised}
    (failed : QueueState.walkBack messages when fuel start = .error raised) : ¬raised.Rejects := by
  induction fuel generalizing start with
  | zero =>
      cases failed
      exact Raised.outOfFuel_not_rejects
  | succ fuel ih =>
      rw [QueueState.walkBack] at failed
      split at failed
      · cases failed
        exact Raised.nullPointer_not_rejects
      · split at failed
        · cases failed
        · exact ih failed

theorem QueueState.insertMessage_not_rejects {st : QueueState} {message : MessageId} {when : Nat}
    {raised : Raised} (failed : st.insertMessage message when = .error raised) :
    ¬raised.Rejects := by
  rw [QueueState.insertMessage, QueueState.link] at failed
  split at failed
  · cases failed
  · split at failed
    · cases failed
      exact Raised.nullPointer_not_rejects
    · split at failed
      · cases failed
      · split at failed
        · cases failed
          exact QueueState.walkBack_not_rejects ‹_›
        · cases failed

namespace Handler

variable {onCancel : Loopers.OnCancel} {st : Loopers} {after : Loopers → Prop}

/-- The queue rejects a message without a target and one in use, and writes nothing then. -/
theorem enqueueMessage_rejects (queue : Nat) (message : MessageId) (when : UInt64) :
    Leads (enqueueMessage onCancel queue message when) (fun _ _ => True)
        (fun raised st' => raised.Rejects → after st') st ↔
      ((st.store.messages message).target = none ∨
        (st.store.messages message).isInUse = true → after st) := by
  rw [enqueueMessage, leads_bind, leads_get, leads_ite, leads_throw, leads_ite, leads_throw,
    leads_ite]
  have untargeted : (Raised.illegalArgumentException "Message must have a target").Rejects :=
    .inl rfl
  have busy : (Raised.illegalStateException "Message is already in use").Rejects := .inr rfl
  constructor
  · intro leads rejected
    by_cases target : (st.store.messages message).target = none
    · exact leads.1 target untargeted
    · exact (leads.2 target).1 (rejected.resolve_left target) busy
  · intro rejected
    refine ⟨fun target _ => rejected (.inl target), fun _ =>
      ⟨fun inUse _ => rejected (.inr inUse), fun _ => ⟨fun _ => trivial, fun _ => ?_⟩⟩⟩
    cases inserted : (st.queueState queue).insertMessage message when.toNat with
    | error raised =>
        exact fun rejects => (QueueState.insertMessage_not_rejects inserted rejects).elim
    | ok inserted => exact trivial

theorem sendMessageAtTime_rejects (handler : ObjectId) (message : MessageId)
    (uptimeMillis : UInt64) :
    Leads (sendMessageAtTime onCancel handler message uptimeMillis) (fun _ _ => True)
        (fun raised st' => raised.Rejects → after st') st ↔
      ((st.store.messages message).isInUse = true →
        after (st.assign message fun m => { m with target := some handler })) := by
  rw [sendMessageAtTime, leads_bind, leads_modify, leads_bind, leads_get, enqueueMessage_rejects]
  have written : (st.assign message fun m => { m with target := some handler }).store.messages
      message = { st.store.messages message with target := some handler } :=
    Function.update_self _ _ _
  rw [written]
  exact ⟨fun rejects inUse => rejects (.inr inUse),
    fun busy rejected => busy (rejected.resolve_left (fun none => by cases none))⟩

theorem sendMessageDelayed_rejects (handler : ObjectId) (message : MessageId)
    (delayMillis : UInt32) :
    Leads (sendMessageDelayed onCancel handler message delayMillis) (fun _ _ => True)
        (fun raised st' => raised.Rejects → after st') st ↔
      ((st.store.messages message).isInUse = true →
        after (st.assign message fun m => { m with target := some handler })) := by
  rw [sendMessageDelayed, leads_bind, leads_get, sendMessageAtTime_rejects]

/-! ## Messages that were just obtained -/

theorem obtained_free (store : Store) :
    (store.obtain.1.messages store.obtain.2).isInUse = false := by
  rw [Store.obtain]
  cases store.sMessagePool.pool with
  | none =>
      change (Function.update store.messages store.allocated _ store.allocated).isInUse = false
      rw [Function.update_self]
      rfl
  | some message =>
      change (Function.update store.messages message _ message).isInUse = false
      rw [Function.update_self]
      change ((0 : BitVec 32) &&& flagInUse == flagInUse) = false
      decide

/-- Whatever fields are assigned, the message is not in use. -/
theorem leads_getMessage {change : Message → Message} {returns : MessageId → Loopers → Prop}
    {throws : Raised → Loopers → Prop}
    (unused : ∀ message, (change message).isInUse = message.isInUse)
    (leads : ∀ message st', (st'.store.messages message).isInUse = false → returns message st') :
    Leads (getMessage change) returns throws st := by
  rw [getMessage, obtain, leads_bind, leads_bind, leads_get, leads_bind, leads_modify,
    leads_pure, leads_bind, leads_modify, leads_pure]
  apply leads
  have free := obtained_free st.store
  rw [← unused] at free
  refine Eq.trans (congrArg Message.isInUse ?_) free
  exact Function.update_self _ _ _

/-- What is sent with a message that is not in use is not rejected. -/
theorem never_rejected_delayed {handler : ObjectId} {message : MessageId} {delayMillis : UInt32}
    (free : (st.store.messages message).isInUse = false) :
    Leads (sendMessageDelayed onCancel handler message delayMillis) (fun _ _ => True)
      (fun raised st' => raised.Rejects → after st') st := by
  rw [sendMessageDelayed_rejects, free]
  exact fun inUse => by cases inUse

theorem never_rejected_atTime {handler : ObjectId} {message : MessageId} {uptimeMillis : UInt64}
    (free : (st.store.messages message).isInUse = false) :
    Leads (sendMessageAtTime onCancel handler message uptimeMillis) (fun _ _ => True)
      (fun raised st' => raised.Rejects → after st') st := by
  rw [sendMessageAtTime_rejects, free]
  exact fun inUse => by cases inUse

end Handler

namespace Send

open Handler

variable {onCancel : Loopers.OnCancel} {st : Loopers}

/-- Assigning a handler keeps what is queued if the message is not, or has the handler. -/
theorem kept_assign_iff {handler : ObjectId} {message : MessageId} :
    st.Kept (st.assign message fun m => { m with target := some handler }) ↔
      ¬(st.Queued message ∧ (st.store.messages message).target ≠ some handler) := by
  constructor
  · rintro kept ⟨queued, other⟩
    have written : (st.assign message fun m => { m with target := some handler }).store.messages
        message = { st.store.messages message with target := some handler } :=
      Function.update_self _ _ _
    have same := kept.messages message queued
    rw [written] at same
    exact other (congrArg Message.target same).symm
  · intro allowed
    refine ⟨rfl, fun other queued => ?_⟩
    by_cases same : other = message
    · subst same
      have target : (st.store.messages other).target = some handler := by
        by_contra different
        exact allowed ⟨queued, different⟩
      refine (Function.update_self _ _ _).trans ?_
      rw [← target]
    · exact Function.update_of_ne same _ _

theorem redirects_given {send : Send} {handler : ObjectId} {message : MessageId}
    (given : send.given = some (handler, message)) :
    send.Redirects st ↔ (st.store.messages message).isInUse = true ∧ st.Queued message ∧
      (st.store.messages message).target ≠ some handler := by
  constructor
  · rintro ⟨handler', message', given', redirects⟩
    cases given.symm.trans given'
    exact redirects
  · exact fun redirects => ⟨handler, message, given, redirects⟩

theorem not_redirects {send : Send} (given : send.given = none) : ¬send.Redirects st := by
  rintro ⟨handler, message, given', _⟩
  cases given.symm.trans given'

/-- A rejected call changes nothing that is queued exactly if it is no call of a handler with a
message that is in use and waits for another handler. -/
theorem keepsQueued_iff (onCancel : Loopers.OnCancel) (send : Send) (st : Loopers) :
    send.KeepsQueued onCancel st ↔ ¬send.Redirects st := by
  unfold KeepsQueued
  cases send with
  | enqueueMessage queue message when =>
      rw [call, leads_discard, enqueueMessage_rejects]
      exact ⟨fun _ => not_redirects rfl, fun _ _ => Loopers.Kept.refl st⟩
  | sendMessageAtTime handler message uptimeMillis =>
      rw [call, leads_discard, sendMessageAtTime_rejects, redirects_given rfl, kept_assign_iff]
      exact not_and.symm
  | sendMessageDelayed handler message delayMillis =>
      rw [call, leads_discard, sendMessageDelayed_rejects, redirects_given rfl, kept_assign_iff]
      exact not_and.symm
  | sendMessage handler message =>
      rw [call, leads_discard, Handler.sendMessage, sendMessageDelayed_rejects,
        redirects_given rfl, kept_assign_iff]
      exact not_and.symm
  | sendToTarget message =>
      refine iff_of_true ?_ (not_redirects rfl)
      rw [call, leads_discard, Handler.sendToTarget, leads_bind, leads_get]
      cases target : (st.store.messages message).target with
      | none => exact fun rejects => (Raised.nullPointer_not_rejects rejects).elim
      | some handler =>
          refine (sendMessageDelayed_rejects handler message 0).mpr fun _ => ?_
          exact kept_assign_iff.mpr fun other => other.2 target
  | sendEmptyMessageAtTime handler what uptimeMillis =>
      refine iff_of_true ?_ (not_redirects rfl)
      rw [call, leads_discard, Handler.sendEmptyMessageAtTime, leads_bind]
      exact leads_getMessage (fun _ => rfl) fun _ _ => never_rejected_atTime
  | sendEmptyMessageDelayed handler what delayMillis =>
      refine iff_of_true ?_ (not_redirects rfl)
      rw [call, leads_discard, Handler.sendEmptyMessageDelayed, leads_bind]
      exact leads_getMessage (fun _ => rfl) fun _ _ => never_rejected_delayed
  | sendEmptyMessage handler what =>
      refine iff_of_true ?_ (not_redirects rfl)
      rw [call, leads_discard, Handler.sendEmptyMessage, Handler.sendEmptyMessageDelayed,
        leads_bind]
      exact leads_getMessage (fun _ => rfl) fun _ _ => never_rejected_delayed
  | post handler runnable =>
      refine iff_of_true ?_ (not_redirects rfl)
      rw [call, leads_discard, Handler.post, leads_bind]
      refine leads_getMessage (fun _ => rfl) fun _ _ free => ?_
      rw [leads_bind]
      exact never_rejected_delayed free
  | postAtTime handler runnable uptimeMillis =>
      refine iff_of_true ?_ (not_redirects rfl)
      rw [call, leads_discard, Handler.postAtTime, leads_bind]
      refine leads_getMessage (fun _ => rfl) fun _ _ free => ?_
      rw [leads_bind]
      exact never_rejected_atTime free
  | postTokenAtTime handler runnable token uptimeMillis =>
      refine iff_of_true ?_ (not_redirects rfl)
      rw [call, leads_discard, Handler.postTokenAtTime, leads_bind]
      refine leads_getMessage (fun _ => rfl) fun _ _ free => ?_
      rw [leads_bind]
      exact never_rejected_atTime free
  | postDelayed handler runnable delayMillis =>
      refine iff_of_true ?_ (not_redirects rfl)
      rw [call, leads_discard, Handler.postDelayed, leads_bind]
      refine leads_getMessage (fun _ => rfl) fun _ _ free => ?_
      rw [leads_bind]
      exact never_rejected_delayed free

/-- Handlers 7 and 8 of different loopers: message 0 waits in the queue of handler 7 when handler 8
sends it. -/
def busy : Loopers where
  store :=
    { messages := fun _ => { what := 1, target := some 7, when := 5, flags := flagInUse }
      allocated := 1 }
  queues := fun queue =>
    if queue = 0 then { mHeadMessage := some 0, mTailMessage := some 0 } else {}
  mMessageQueue := fun handler => if handler = 7 then 0 else 1

/-- The message is rejected, but will be dispatched to handler 8. -/
theorem rejected_send_redirects :
    ¬(Send.sendMessage 8 0).KeepsQueued (fun _ st => st) busy := by
  intro keeps
  have kept : busy.Kept (busy.assign 0 fun m => { m with target := some 8 }) :=
    (sendMessageDelayed_rejects 8 0 0).mp ((leads_discard _).mp keeps) (by decide)
  have queued : busy.Queued 0 := ⟨0, [0], none, ⟨rfl, rfl⟩, List.mem_singleton.mpr rfl⟩
  have same := congrArg Message.target (kept.messages 0 queued)
  exact absurd same (by decide)

end Send

end Mindroid
