import Mindroid.Foundation.DoublyLinked
import Mindroid.Foundation.DueOrder
import Mindroid.Os.MessageQueue

/-!
# What the links of a message queue mean

A queue state represents a list of messages when the head and tail pointers and
the two link fields spell out exactly that list, in nondecreasing order of due
times.  Each primitive of the queue operations is described by the list it turns
the represented list into and by what it leaves alone.
-/

set_option autoImplicit false

namespace Mindroid.QueueState

open Foundation

/-- Due time of a message. -/
def dueTime (st : QueueState) (id : MessageId) : Nat :=
  (st.store.contents id).when

/-- The queue holds exactly these messages, in this order. -/
structure Represents (st : QueueState) (nodes : List MessageId) : Prop where
  linked : Linked st.store.next st.store.prev st.queue.mHeadMessage st.queue.mTailMessage nodes
  ordered : DueOrdered st.dueTime nodes
  inUse : ∀ id ∈ nodes, (st.store.contents id).isInUse = true
  allocated : ∀ id ∈ nodes, id < st.store.allocated

/-- The step rewrote nothing but the head and tail pointers and links of the
given messages. -/
structure Relinks (st st' : QueueState) (nodes : List MessageId) : Prop where
  contents : st'.store.contents = st.store.contents
  next : ∀ id, id ∉ nodes → st'.store.next id = st.store.next id
  prev : ∀ id, id ∉ nodes → st'.store.prev id = st.store.prev id
  allocated : st'.store.allocated = st.store.allocated
  pool : st'.store.sMessagePool = st.store.sMessagePool
  isDone : st'.store.isDone = st.store.isDone
  mQuitAllowed : st'.queue.mQuitAllowed = st.queue.mQuitAllowed
  mQuitting : st'.queue.mQuitting = st.queue.mQuitting

theorem Relinks.mono {st st' : QueueState} {nodes nodes' : List MessageId}
    (relinks : Relinks st st' nodes) (inside : ∀ id ∈ nodes, id ∈ nodes') :
    Relinks st st' nodes' :=
  { relinks with
    next := fun id outside => relinks.next id fun member => outside (inside id member)
    prev := fun id outside => relinks.prev id fun member => outside (inside id member) }

theorem Relinks.dueTime {st st' : QueueState} {nodes : List MessageId}
    (relinks : Relinks st st' nodes) : st'.dueTime = st.dueTime := by
  funext id
  simp only [QueueState.dueTime, relinks.contents]

namespace Represents

variable {st : QueueState} {nodes : List MessageId} {message : MessageId}

theorem nodup (represents : Represents st nodes) : nodes.Nodup :=
  represents.linked.nodup

theorem unique {other : List MessageId} (represents : Represents st nodes)
    (represents' : Represents st other) : nodes = other :=
  represents.linked.unique represents'.linked

/-- A message that is not in use is not in the queue. -/
theorem not_mem_of_free (represents : Represents st nodes)
    (free : (st.store.contents message).isInUse = false) : message ∉ nodes := by
  intro member
  simp [represents.inUse message member] at free

/-- The queue only reads the links and contents of its own messages. -/
theorem congr {st' : QueueState} (represents : Represents st nodes)
    (head : st'.queue.mHeadMessage = st.queue.mHeadMessage)
    (tail : st'.queue.mTailMessage = st.queue.mTailMessage)
    (next : ∀ id ∈ nodes, st'.store.next id = st.store.next id)
    (prev : ∀ id ∈ nodes, st'.store.prev id = st.store.prev id)
    (contents : ∀ id ∈ nodes, st'.store.contents id = st.store.contents id)
    (allocated : st.store.allocated ≤ st'.store.allocated) : Represents st' nodes where
  linked := by
    rw [head, tail]
    exact represents.linked.congr next prev
  ordered := by
    apply List.Pairwise.imp_of_mem _ represents.ordered
    intro earlier later earlierMem laterMem order
    simpa only [dueTime, contents earlier earlierMem, contents later laterMem] using order
  inUse id member := by
    rw [contents id member]
    exact represents.inUse id member
  allocated id member := Nat.lt_of_lt_of_le (represents.allocated id member) allocated

/-- A queue is no longer than the number of messages there are. -/
theorem length_le (represents : Represents st nodes) : nodes.length ≤ st.store.allocated := by
  have inside : nodes ⊆ List.range st.store.allocated := by
    intro id member
    exact List.mem_range.mpr (represents.allocated id member)
  simpa using (List.subperm_of_subset represents.nodup inside).length_le

/-- A relinking step keeps order, marks and addresses of the messages that stay. -/
theorem of_relinks {st' : QueueState} {nodes' touched : List MessageId}
    (represents : Represents st nodes) (relinks : Relinks st st' touched)
    (linked : Linked st'.store.next st'.store.prev st'.queue.mHeadMessage
      st'.queue.mTailMessage nodes')
    (kept : nodes'.Sublist nodes) : Represents st' nodes' where
  linked := linked
  ordered := by
    rw [DueOrdered, relinks.dueTime]
    exact represents.ordered.sublist kept
  inUse id member := by
    rw [relinks.contents]
    exact represents.inUse id (kept.subset member)
  allocated id member := by
    rw [relinks.allocated]
    exact represents.allocated id (kept.subset member)

end Represents

/-! ## Insertion -/

section Insertion

variable {st : QueueState} {nodes : List MessageId} {message : MessageId}

theorem linkHead_relinks (represents : Represents st nodes) (message : MessageId) :
    Relinks st (st.linkHead message) (message :: nodes) := by
  have headEq := represents.linked.head_eq
  cases nodes with
  | nil =>
      simp only [List.head?_nil] at headEq
      constructor <;> simp +contextual [linkHead, headEq, Function.update_of_ne]
  | cons head rest =>
      simp only [List.head?_cons] at headEq
      constructor <;> simp +contextual [linkHead, headEq, Function.update_of_ne]

theorem linkHead_linked (represents : Represents st nodes) (absent : message ∉ nodes)
    (prevNone : st.store.prev message = none) :
    Linked (st.linkHead message).store.next (st.linkHead message).store.prev
      (st.linkHead message).queue.mHeadMessage (st.linkHead message).queue.mTailMessage
      (message :: nodes) := by
  have headEq := represents.linked.head_eq
  cases nodes with
  | nil =>
      simp only [List.head?_nil] at headEq
      simp only [linkHead, headEq, Store.next_setNext, Store.prev_setNext]
      exact Linked.singleton (by simp) prevNone
  | cons head rest =>
      simp only [List.head?_cons] at headEq
      have pushed := represents.linked.pushFront absent prevNone
      simpa only [linkHead, headEq, Store.next_setNext, Store.prev_setNext, Store.next_setPrev,
        Store.prev_setPrev] using pushed

theorem linkTail_relinks {front : List MessageId} {tail : MessageId} (message : MessageId) :
    Relinks st (st.linkTail message tail) (front ++ [tail, message]) := by
  constructor <;> simp +contextual [linkTail, Function.update_of_ne]

theorem linkTail_linked {front : List MessageId} {tail : MessageId}
    (represents : Represents st (front ++ [tail])) (absent : message ∉ front ++ [tail])
    (nextNone : st.store.next message = none) :
    Linked (st.linkTail message tail).store.next (st.linkTail message tail).store.prev
      (st.linkTail message tail).queue.mHeadMessage (st.linkTail message tail).queue.mTailMessage
      (front ++ [tail, message]) := by
  have pushed := represents.linked.pushBack absent nextNone
  rw [represents.linked.tail_eq, List.getLast?_concat] at pushed
  simpa only [linkTail, Store.next_setNext, Store.prev_setNext, Store.next_setPrev,
    Store.prev_setPrev] using pushed

theorem linkBetween_relinks {front back : List MessageId} {left right : MessageId}
    (message : MessageId) :
    Relinks st (st.linkBetween message right left)
      (front ++ left :: message :: right :: back) := by
  constructor <;> simp +contextual [linkBetween, Function.update_of_ne]

theorem linkBetween_linked {front back : List MessageId} {left right : MessageId}
    (represents : Represents st (front ++ left :: right :: back))
    (absent : message ∉ front ++ left :: right :: back) :
    Linked (st.linkBetween message right left).store.next
      (st.linkBetween message right left).store.prev
      (st.linkBetween message right left).queue.mHeadMessage
      (st.linkBetween message right left).queue.mTailMessage
      (front ++ left :: message :: right :: back) := by
  simpa only [linkBetween, Store.next_setNext, Store.prev_setNext, Store.next_setPrev,
    Store.prev_setPrev] using represents.linked.insertBetween absent

/-- The backward walk of `enqueueMessage` ends between two neighbours, the left
one due no later than `when` and the right one due later.  It never reaches a
null link because the head is due no later than `when`. -/
theorem walkBack_spec {when fuel : Nat} {front back : List MessageId} {right : MessageId}
    (represents : Represents st (front ++ right :: back))
    (headDue : ∀ head, (front ++ right :: back).head? = some head → st.dueTime head ≤ when)
    (rightLate : when < st.dueTime right) (enough : front.length ≤ fuel) :
    ∃ before left next after, front ++ right :: back = before ++ left :: next :: after ∧
      walkBack st.store.messages when fuel right = .ok (next, left) ∧
      st.dueTime left ≤ when ∧ when < st.dueTime next := by
  induction fuel generalizing front right back with
  | zero =>
      have empty : front = [] := List.length_eq_zero_iff.mp (Nat.le_zero.mp enough)
      subst empty
      exact absurd (headDue right rfl) (Nat.not_le.mpr rightLate)
  | succ fuel ih =>
      have prevEq : (st.store.messages right).prevMessage = front.getLast? :=
        represents.linked.prev_eq
      rcases List.eq_nil_or_concat front with empty | ⟨before, left, split⟩
      · subst empty
        exact absurd (headDue right rfl) (Nat.not_le.mpr rightLate)
      · rw [List.concat_eq_append] at split
        subst split
        rw [List.getLast?_concat] at prevEq
        have regroup : before ++ [left] ++ right :: back = before ++ left :: right :: back := by
          simp
        rw [regroup] at represents headDue ⊢
        by_cases due : st.dueTime left ≤ when
        · refine ⟨before, left, right, back, rfl, ?_, due, rightLate⟩
          have dueField : (st.store.messages left).when ≤ when := due
          simp [walkBack, prevEq, dueField]
        · have shorter : before.length ≤ fuel := by
            simpa using enough
          rcases ih represents headDue (Nat.not_le.mp due) shorter with
            ⟨before', left', next, after, split, walked, bounds⟩
          refine ⟨before', left', next, after, split, ?_, bounds⟩
          have lateField : ¬(st.store.messages left).when ≤ when := due
          simp [walkBack, prevEq, lateField, walked]

/-- Linking a stamped message at its place yields the list with that message. -/
theorem represents_inserted {st' : QueueState} {touched : List MessageId}
    (represents : Represents st nodes) (relinks : Relinks st st' touched)
    (marked : (st.store.contents message).isInUse = true) (known : message < st.store.allocated)
    (linked : Linked st'.store.next st'.store.prev st'.queue.mHeadMessage
      st'.queue.mTailMessage (insertDue st.dueTime message nodes)) :
    Represents st' (insertDue st'.dueTime message nodes) := by
  rw [relinks.dueTime]
  refine ⟨linked, ?_, ?_, ?_⟩
  · rw [relinks.dueTime]
    exact insertDue_ordered message represents.ordered
  · intro id member
    rw [relinks.contents]
    rcases mem_insertDue.mp member with same | inside
    · exact same ▸ marked
    · exact represents.inUse id inside
  · intro id member
    rw [relinks.allocated]
    rcases mem_insertDue.mp member with same | inside
    · exact same ▸ known
    · exact represents.allocated id inside

/-- Marking and stamping a message outside the queue does not disturb the queue. -/
theorem represents_stamp (represents : Represents st nodes) (absent : message ∉ nodes)
    (when : Nat) : Represents { st with store := st.store.stamp message when } nodes := by
  apply represents.congr
  · rfl
  · rfl
  · intro id _
    simp
  · intro id _
    simp
  · intro id member
    have distinct : id ≠ message := fun same => absent (same ▸ member)
    simp [distinct]
  · exact Nat.le_refl _

/-- First branch: the message is due before every queued one. -/
theorem place_head (represents : Represents st nodes)
    (atHead : st.insertsAtHead (st.dueTime message) = true) :
    insertDue st.dueTime message nodes = message :: nodes := by
  have headEq := represents.linked.head_eq
  by_cases now : st.dueTime message = 0
  · simp [insertDue, now]
  · have place : insertDue st.dueTime message ([] ++ nodes) = [] ++ message :: nodes := by
      apply insertDue_of_split now
      · intro other member
        exact absurd member (by simp)
      · intro first isHead
        rw [isHead] at headEq
        have field : st.dueTime message < (st.store.messages first).when := by
          simpa [insertsAtHead, headEq, now] using atHead
        exact field
    exact place

/-- Past the first branch the queue has a head, which is due no later. -/
theorem headDue_of_not_atHead {when : Nat} (represents : Represents st nodes)
    (atHead : st.insertsAtHead when = false) :
    nodes ≠ [] ∧ when ≠ 0 ∧ ∀ head, nodes.head? = some head → st.dueTime head ≤ when := by
  have headEq := represents.linked.head_eq
  cases nodes with
  | nil => simp [insertsAtHead, headEq] at atHead
  | cons head rest =>
      simp only [insertsAtHead, headEq, List.head?_cons, Bool.or_eq_false_iff,
        beq_eq_false_iff_ne, decide_eq_false_iff_not, Nat.not_lt] at atHead
      refine ⟨by simp, atHead.1, ?_⟩
      intro other isHead
      rw [← Option.some.inj isHead]
      exact atHead.2

/-- Second branch: the message is due no earlier than the last one. -/
theorem place_tail {front : List MessageId} {tail : MessageId}
    (represents : Represents st (front ++ [tail])) (later : st.dueTime message ≠ 0)
    (tailDue : st.dueTime tail ≤ st.dueTime message) :
    insertDue st.dueTime message (front ++ [tail]) = front ++ [tail, message] := by
  have place : insertDue st.dueTime message ((front ++ [tail]) ++ []) =
      (front ++ [tail]) ++ [message] := by
    apply insertDue_of_split later
    · intro other member
      rcases List.mem_append.mp member with inFront | isTail
      · have order := (List.pairwise_append.mp represents.ordered).2.2 other inFront tail
        exact Nat.le_trans (order (by simp)) tailDue
      · rw [List.mem_singleton.mp isTail]
        exact tailDue
    · simp
  simpa using place

/-- Third branch: the message is due between two neighbours. -/
theorem place_between {before after : List MessageId} {left next : MessageId}
    (represents : Represents st (before ++ left :: next :: after))
    (later : st.dueTime message ≠ 0) (leftDue : st.dueTime left ≤ st.dueTime message)
    (nextLate : st.dueTime message < st.dueTime next) :
    insertDue st.dueTime message (before ++ left :: next :: after) =
      before ++ left :: message :: next :: after := by
  have place : insertDue st.dueTime message ((before ++ [left]) ++ next :: after) =
      (before ++ [left]) ++ message :: next :: after := by
    apply insertDue_of_split later
    · intro other member
      rcases List.mem_append.mp member with inBefore | isLeft
      · have order := (List.pairwise_append.mp represents.ordered).2.2 other inBefore left
        exact Nat.le_trans (order (by simp)) leftDue
      · rw [List.mem_singleton.mp isLeft]
        exact leftDue
    · intro other first
      rw [← Option.some.inj first]
      exact nextLate
  simpa using place

/-- The linking branches of `enqueueMessage`, after the message is stamped: the
message is linked at its place, and no branch dereferences null. -/
theorem link_spec {stamped : QueueState} (represents : Represents stamped nodes)
    (absent : message ∉ nodes) (nextNone : stamped.store.next message = none)
    (prevNone : stamped.store.prev message = none) :
    ∃ st', stamped.link message (stamped.dueTime message) = .ok st' ∧
      Relinks stamped st' (message :: nodes) ∧
      Linked st'.store.next st'.store.prev st'.queue.mHeadMessage st'.queue.mTailMessage
        (insertDue stamped.dueTime message nodes) := by
  cases atHead : stamped.insertsAtHead (stamped.dueTime message) with
  | true =>
      refine ⟨stamped.linkHead message, by simp [link, atHead],
        linkHead_relinks represents message, ?_⟩
      rw [place_head represents atHead]
      exact linkHead_linked represents absent prevNone
  | false =>
      rcases headDue_of_not_atHead represents atHead with ⟨nonempty, later, headDue⟩
      rcases List.eq_nil_or_concat nodes with empty | ⟨front, tail, split⟩
      · exact absurd empty nonempty
      rw [List.concat_eq_append] at split
      subst split
      have tailEq : stamped.queue.mTailMessage = some tail := by
        rw [represents.linked.tail_eq, List.getLast?_concat]
      by_cases tailDue : stamped.dueTime tail ≤ stamped.dueTime message
      · have tailField : (stamped.store.messages tail).when ≤ stamped.dueTime message := tailDue
        refine ⟨stamped.linkTail message tail, by simp [link, atHead, tailEq, tailField], ?_, ?_⟩
        · apply (linkTail_relinks message).mono
          intro id member
          simp only [List.mem_append, List.mem_cons] at member ⊢
          tauto
        · rw [place_tail represents later tailDue]
          exact linkTail_linked represents absent nextNone
      · have tailField : ¬(stamped.store.messages tail).when ≤ stamped.dueTime message := tailDue
        have enough : front.length ≤ stamped.store.allocated := by
          have bound := represents.length_le
          simp only [List.length_append, List.length_singleton] at bound
          exact Nat.le_of_succ_le bound
        rcases walkBack_spec represents headDue (Nat.not_le.mp tailDue) enough with
          ⟨before, left, next, after, split, walked, leftDue, nextLate⟩
        refine ⟨stamped.linkBetween message next left,
          by simp [link, atHead, tailEq, tailField, walked], ?_, ?_⟩
        · rw [split]
          apply (linkBetween_relinks message).mono
          intro id member
          simp only [List.mem_append, List.mem_cons] at member ⊢
          tauto
        · rw [split] at represents absent ⊢
          rw [place_between represents later leftDue nextLate]
          exact linkBetween_linked represents absent

/-- An accepted message ends up at its place in the due order. -/
theorem insertMessage_spec (represents : Represents st nodes) (absent : message ∉ nodes)
    (nextNone : st.store.next message = none) (prevNone : st.store.prev message = none)
    (known : message < st.store.allocated) (when : Nat) :
    ∃ st', st.insertMessage message when = .ok st' ∧
      Represents st' (insertDue st'.dueTime message nodes) ∧
      Relinks { st with store := st.store.stamp message when } st' (message :: nodes) := by
  have stamped := represents_stamp represents absent when
  have due : dueTime { st with store := st.store.stamp message when } message = when := by
    simp [dueTime]
  have marked := (st.store.contents message).isInUse_markInUse
  rcases link_spec stamped absent (by simpa using nextNone) (by simpa using prevNone) with
    ⟨st', linked, relinks, isLinked⟩
  rw [due] at linked
  refine ⟨st', linked, ?_, relinks⟩
  apply represents_inserted stamped relinks _ known isLinked
  simpa [Message.isInUse] using marked

end Insertion

/-! ## Unlinking -/

section Unlinking

variable {st : QueueState} {message : MessageId}

/-- Making the successor of a message the head drops that message and everything
in front of it. -/
theorem unlinkHead_relinks {front back : List MessageId}
    (represents : Represents st (front ++ message :: back)) :
    Relinks st (st.unlinkHead (st.store.messages message).nextMessage) back := by
  have nextEq : (st.store.messages message).nextMessage = back.head? := represents.linked.next_eq
  rw [nextEq]
  cases back with
  | nil => constructor <;> simp [unlinkHead]
  | cons next back => constructor <;> simp +contextual [unlinkHead, Function.update_of_ne]

theorem unlinkHead_represents {front back : List MessageId}
    (represents : Represents st (front ++ message :: back)) :
    Represents (st.unlinkHead (st.store.messages message).nextMessage) back := by
  have nextEq : (st.store.messages message).nextMessage = back.head? := represents.linked.next_eq
  apply represents.of_relinks (unlinkHead_relinks represents)
  · rw [nextEq]
    cases back with
    | nil => exact Linked.empty
    | cons next back =>
        have regroup : front ++ message :: next :: back = (front ++ [message]) ++ next :: back := by
          simp
        have linked := represents.linked
        rw [regroup] at linked
        simpa [unlinkHead] using linked.dropFront
  · exact (List.sublist_cons_self message back).trans (List.sublist_append_right _ _)

theorem unlinkAfter_relinks {front back : List MessageId} {left : MessageId}
    (represents : Represents st (front ++ left :: message :: back)) :
    Relinks st (st.unlinkAfter left message) (left :: back) := by
  have regroup : front ++ left :: message :: back = (front ++ [left]) ++ message :: back := by
    simp
  have linked := represents.linked
  rw [regroup] at linked
  have nextEq : (st.store.messages message).nextMessage = back.head? := linked.next_eq
  cases back with
  | nil =>
      simp only [List.head?_nil] at nextEq
      constructor <;> simp +contextual [unlinkAfter, nextEq, Function.update_of_ne]
  | cons right back =>
      simp only [List.head?_cons] at nextEq
      constructor <;> simp +contextual [unlinkAfter, nextEq, Function.update_of_ne]

theorem unlinkAfter_represents {front back : List MessageId} {left : MessageId}
    (represents : Represents st (front ++ left :: message :: back)) :
    Represents (st.unlinkAfter left message) (front ++ left :: back) := by
  have regroup : front ++ left :: message :: back = (front ++ [left]) ++ message :: back := by
    simp
  have linked := represents.linked
  rw [regroup] at linked
  have nextEq : (st.store.messages message).nextMessage = back.head? := linked.next_eq
  apply represents.of_relinks (unlinkAfter_relinks represents)
  · cases back with
    | nil =>
        simp only [List.head?_nil] at nextEq
        simpa [unlinkAfter, nextEq] using represents.linked.popBack
    | cons right back =>
        simp only [List.head?_cons] at nextEq
        simpa [unlinkAfter, nextEq] using represents.linked.removeBetween
  · exact ((List.sublist_cons_self message back).cons_cons left).append_left front

/-- Recycling a message that is not queued leaves the queue alone. -/
theorem represents_reclaim {nodes : List MessageId} (represents : Represents st nodes)
    (absent : message ∉ nodes) :
    Represents { st with store := st.store.reclaim message } nodes := by
  have distinct : ∀ id ∈ nodes, id ≠ message := fun id member same => absent (same ▸ member)
  apply represents.congr
  · rfl
  · rfl
  · intro id member
    exact Store.next_reclaim_of_ne _ _ (distinct id member)
  · intro id member
    simp [distinct id member]
  · intro id member
    simp [distinct id member]
  · simp

end Unlinking

end Mindroid.QueueState
