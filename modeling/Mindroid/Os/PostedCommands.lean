import Mindroid.Os.DelayedMessages

/-!
# Commands posted to one handler

A handler that only ever gets posts with a runnable has a queue of commands with their due times.
Posting adds one of them, removing callbacks drops all posts of a command, and the looper takes the
first one when it is due.
-/

set_option autoImplicit false

namespace Mindroid

open Foundation

namespace Loopers

/-- What the looper needs of a post: the handler, the command and the due time. -/
def post (contents : Message) : Option ObjectId × Option ObjectId × Nat :=
  (contents.target, contents.callback, contents.when)

/-- The queue of the handler is open and consists of posts of these commands. -/
structure Posted (st : Loopers) (handler : ObjectId) (waiting : List (ObjectId × Nat))
    (nodes pooled : List MessageId) : Prop where
  isOpen : st.Open (st.mMessageQueue handler) nodes pooled
  posts : nodes.map (fun id => post (st.store.contents id)) =
    waiting.map fun command => (some handler, some command.1, command.2)

def HasPosts (st : Loopers) (handler : ObjectId) (waiting : List (ObjectId × Nat)) : Prop :=
  ∃ nodes pooled, st.Posted handler waiting nodes pooled

/-- The command waits in the queue of the handler until it is due. -/
def Waits (st : Loopers) (handler command : ObjectId) (due : Nat) : Prop :=
  ∃ message, (st.queueState (st.mMessageQueue handler)).Queued message ∧
    post (st.store.contents message) = (some handler, some command, due)

section Posts

variable {st : Loopers} {handler : ObjectId} {waiting : List (ObjectId × Nat)}

theorem HasPosts.waits_mem_iff (posts : st.HasPosts handler waiting) (command : ObjectId)
    (due : Nat) : st.Waits handler command due ↔ (command, due) ∈ waiting := by
  rcases posts with ⟨nodes, pooled, isOpen, posts⟩
  constructor
  · rintro ⟨message, queued, isPost⟩
    have member := (isOpen.holds.represents.queued_iff message).mp queued
    have inPosts : (some handler, some command, due) ∈
        nodes.map fun id => post (st.store.contents id) :=
      List.mem_map.mpr ⟨message, member, isPost⟩
    rw [posts] at inPosts
    rcases List.mem_map.mp inPosts with ⟨⟨other, otherDue⟩, waits, same⟩
    cases same
    exact waits
  · intro member
    have inPosts : (some handler, some command, due) ∈
        waiting.map fun command => (some handler, some command.1, command.2) :=
      List.mem_map.mpr ⟨(command, due), member, rfl⟩
    rw [← posts] at inPosts
    rcases List.mem_map.mp inPosts with ⟨message, queued, isPost⟩
    exact ⟨message, (isOpen.holds.represents.queued_iff message).mpr queued, isPost⟩

/-- Posting a command adds it to the queue. -/
theorem HasPosts.postDelayed (posts : st.HasPosts handler waiting) (onCancel : OnCancel)
    (command : ObjectId) (delayMillis : UInt64) :
    ∃ st' waiting',
      Throwing.outcome (Handler.postDelayed onCancel handler (some command) delayMillis) st =
        (.ok (some command), st') ∧
      st'.HasPosts handler waiting' ∧
      waiting'.Perm
        ((command, (st.uptimeMillis + delayMillis.toUInt32.toUInt64).toNat) :: waiting) ∧
      st'.uptimeMillis = st.uptimeMillis := by
  rcases posts with ⟨nodes, pooled, isOpen, posts⟩
  rcases isOpen.postDelayed rfl onCancel (some command) delayMillis with
    ⟨message, st', nodes', pooled', returned, sends⟩
  rcases sends.place with ⟨front, back, split, joined⟩
  rw [split, List.map_append] at posts
  rcases List.map_eq_append_iff.mp posts.symm with ⟨before, after, isWaiting, isBefore, isAfter⟩
  have kept : ∀ ids : List MessageId, (∀ id ∈ ids, id ∈ nodes) →
      ids.map (fun id => post (st'.store.contents id)) =
        ids.map fun id => post (st.store.contents id) := fun ids inside =>
    List.map_congr_left fun id member => congrArg post (sends.others id (inside id member))
  refine ⟨st', before ++
    (command, (st.uptimeMillis + delayMillis.toUInt32.toUInt64).toNat) :: after, returned,
    ⟨nodes', pooled', sends.mMessageQueue ▸ sends.isOpen, ?_⟩, ?_, sends.uptimeMillis⟩
  · rw [joined, List.map_append, List.map_cons, List.map_append, List.map_cons,
      kept front fun id member => split ▸ List.mem_append_left _ member,
      kept back fun id member => split ▸ List.mem_append_right _ member, isBefore, isAfter,
      sends.carries]
    rfl
  · rw [isWaiting]
    exact List.perm_middle

/-- Removing the callbacks of a command drops all posts of it. -/
theorem HasPosts.removeCallbacks (posts : st.HasPosts handler waiting) (command : ObjectId) :
    ∃ st' found,
      Throwing.outcome (Handler.removeCallbacks handler (some command)) st = (.ok found, st') ∧
      st'.HasPosts handler (waiting.filter fun other => !(other.1 == command)) ∧
      st'.uptimeMillis = st.uptimeMillis := by
  rcases posts with ⟨nodes, pooled, isOpen, posts⟩
  rcases QueueState.remove_quiet isOpen.holds (.callbacks (some handler) (some command) none) with
    ⟨after, pooled', returned, drops⟩
  have isOpen' : (st.update (st.mMessageQueue handler) after).Open (st.mMessageQueue handler)
      (nodes.filter fun id => !Removal.removes (.callbacks (some handler) (some command) none)
        (st.queueState (st.mMessageQueue handler)) id) pooled' := by
    constructor
    · rw [queueState_update]
      exact isOpen.holds.drops drops
    · refine (congrArg MessageQueue.mQuitting (Function.update_self _ _ _)).trans ?_
      exact drops.mQuitting.trans isOpen.running
  refine ⟨st.update (st.mMessageQueue handler) after, nodes.any
    (Removal.removes (.callbacks (some handler) (some command) none)
      (st.queueState (st.mMessageQueue handler))), ?_, ⟨_, pooled', isOpen', ?_⟩, rfl⟩
  · rw [Throwing.outcome_eq_iff, Handler.removeCallbacks, Throwing.leads_bind, Throwing.leads_get]
    rw [QueueState.remove] at returned
    simp only [returned]
    exact ⟨rfl, rfl⟩
  · have accepts : (fun id => !Removal.removes (.callbacks (some handler) (some command) none)
        (st.queueState (st.mMessageQueue handler)) id) =
          (fun posted : Option ObjectId × Option ObjectId × Nat =>
            !(posted.1 == some handler && posted.2.1 == some command)) ∘
              fun id => post (st.store.contents id) := by
      funext id
      exact congrArg not (Bool.and_true _)
    have others : (fun posted : Option ObjectId × Option ObjectId × Nat =>
        !(posted.1 == some handler && posted.2.1 == some command)) ∘
          (fun other : ObjectId × Nat => (some handler, some other.1, other.2)) =
            fun other => !(other.1 == command) := by
      funext other
      rw [Function.comp_apply, beq_self_eq_true, Bool.true_and]
      rfl
    calc
      (nodes.filter _).map (fun id => post (after.store.contents id)) =
          (nodes.filter _).map fun id => post (st.store.contents id) :=
        List.map_congr_left fun id member => congrArg post (drops.contents id member)
      _ = (nodes.map fun id => post (st.store.contents id)).filter _ := by
        rw [accepts, List.filter_map]
      _ = _ := by
        rw [posts, List.filter_map, others]

/-- The first post that is due is taken and its message recycled. -/
theorem HasPosts.dequeueMessage (posts : st.HasPosts handler waiting) :
    (∃ result, (st.queueState (st.mMessageQueue handler)).dequeueMessage st.uptimeMillis.toNat =
        (st.queueState (st.mMessageQueue handler), result) ∧ ∀ message, result ≠ .message message) ∨
      ∃ message after command due rest,
        (st.queueState (st.mMessageQueue handler)).dequeueMessage st.uptimeMillis.toNat =
          (after, .message message) ∧
        (after.store.messages message).callback = some command ∧
        waiting = (command, due) :: rest ∧ due ≤ st.uptimeMillis.toNat ∧
        ((st.update (st.mMessageQueue handler) after).recycle (fun _ st => st) message).HasPosts
          handler rest := by
  rcases posts with ⟨nodes, pooled, isOpen, posts⟩
  rcases QueueState.dequeueMessage_quiet isOpen.holds st.uptimeMillis.toNat with
    ⟨_, quits⟩ | ⟨timeout, waits⟩ | ⟨message, others, after, dequeued, running, split, isDue, takes⟩
  · exact .inl ⟨_, quits, fun _ => by simp⟩
  · exact .inl ⟨_, waits, fun _ => by simp⟩
  · right
    rw [split, List.map_cons] at posts
    rcases List.map_eq_cons_iff.mp posts.symm with
      ⟨⟨command, due⟩, rest, isWaiting, isPost, others'⟩
    have nodup := List.nodup_cons.mp (split ▸ isOpen.holds.represents.nodup)
    have member : message ∈ nodes := split ▸ List.mem_cons_self
    have known : message < after.store.allocated := by
      rw [takes.allocated]
      exact isOpen.holds.represents.allocated message member
    rcases takes.holds.recycle nodup.1 (isOpen.holds.apart message member) known with
      ⟨pooled', recycles, holds⟩
    rcases recycle_quiet (st.update (st.mMessageQueue handler) after) message with
      ⟨store, recycled⟩
    have viewed := queueState_recycle (st.update (st.mMessageQueue handler) after)
      (st.mMessageQueue handler) message
    rw [queueState_update] at viewed
    have contents : after.store.contents = st.store.contents := takes.contents
    refine ⟨message, after, command, due, rest, dequeued, ?_, isWaiting, ?_, ?_⟩
    · have callback : (after.store.contents message).callback =
          (post (st.store.contents message)).2.1 := by
        rw [contents]
        rfl
      rw [← isPost] at callback
      exact callback
    · have sameDue : (post (st.store.contents message)).2.2 ≤ st.uptimeMillis.toNat := isDue
      rw [← isPost] at sameDue
      exact sameDue
    · have sameStore : store = (after.recycle Reentry.quiet.onCancel message).store := by
        rw [← viewed, recycled]
        rfl
      refine ⟨others, pooled', ⟨?_, ?_⟩, ?_⟩
      · rw [recycled] at viewed ⊢
        exact viewed ▸ holds
      · rw [recycled]
        refine (congrArg MessageQueue.mQuitting (Function.update_self _ _ _)).trans ?_
        exact takes.mQuitting.trans running
      · rw [recycled, others']
        refine List.map_congr_left fun id member => congrArg post ?_
        change store.contents id = st.store.contents id
        rw [sameStore, ← contents]
        exact Store.contents_congr (recycles.elsewhere id (ne_of_mem_of_not_mem member nodup.1))

end Posts

end Loopers

end Mindroid
