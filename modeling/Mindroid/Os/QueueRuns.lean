import Mindroid.Foundation.Transition
import Mindroid.Os.QueueReentry

/-!
# Runs of a message queue

Any sequence of queue operations started on an empty queue, interleaved with
anything that happens outside the queue.  Continuations of result promises do not
re-enter the queue here.
-/

set_option autoImplicit false

namespace Mindroid

open Foundation

/-- Continuations that leave the queue and its messages alone. -/
def Reentry.quiet : Reentry where
  sends _ := []
  time _ := 0

namespace QueueState

/-- The message is reached from the head pointer. -/
def Queued (st : QueueState) (id : MessageId) : Prop :=
  ∃ nodes, LinkPath st.store.next st.queue.mHeadMessage nodes none ∧ id ∈ nodes

/-- A message that was never enqueued since it was obtained. -/
structure Fresh (st : QueueState) (id : MessageId) : Prop where
  free : st.inUse id = false
  next : st.store.next id = none
  prev : st.store.prev id = none
  known : id < st.store.allocated

/-- Whatever happens outside the queue: messages are obtained, filled in,
dispatched or recycled, results are completed. -/
structure Elsewhere (st st' : QueueState) : Prop where
  queue : st'.queue = st.queue
  messages : ∀ id, st.Queued id → st'.store.messages id = st.store.messages id
  allocated : st.store.allocated ≤ st'.store.allocated

/-- One operation of the queue, or something outside of it. -/
inductive Step (st : QueueState) : QueueState → Prop where
  | elsewhere {st' : QueueState} (outside : Elsewhere st st') : Step st st'
  | enqueueMessage {message : MessageId} {when : Nat} {st' : QueueState} {accepted : Bool}
      (fresh : st.Fresh message)
      (returned : st.enqueueMessage Reentry.quiet.onCancel message when = .ok (st', accepted)) :
      Step st st'
  | dequeueMessage (now : Nat) : Step st (st.dequeueMessage now).1
  | remove {removal : Removal} {st' : QueueState} {found : Bool}
      (returned : st.remove Reentry.quiet.onCancel removal = .ok (st', found)) : Step st st'
  | quit {st' : QueueState} {done : Bool}
      (returned : st.quit Reentry.quiet.onCancel = .ok (st', done)) : Step st st'

/-- A new queue, with any messages elsewhere. -/
def IsNew (st : QueueState) : Prop :=
  ∃ quitAllowed, st.queue = { mQuitAllowed := quitAllowed }

/-! ## One step -/

section Steps

variable {st : QueueState} {nodes : List MessageId}

theorem Represents.queued_iff (represents : Represents st nodes) (id : MessageId) :
    st.Queued id ↔ id ∈ nodes := by
  constructor
  · rintro ⟨nodes', path, member⟩
    rwa [represents.linked.forward.unique path]
  · intro member
    exact ⟨nodes, represents.linked.forward, member⟩

theorem Represents.elsewhere {st' : QueueState} (represents : Represents st nodes)
    (outside : Elsewhere st st') : Represents st' nodes := by
  have same : ∀ id ∈ nodes, st'.store.messages id = st.store.messages id := by
    intro id member
    exact outside.messages id ((represents.queued_iff id).mpr member)
  apply represents.congr
  · rw [outside.queue]
  · rw [outside.queue]
  · intro id member
    rw [Store.next, same id member, Store.next]
  · intro id member
    rw [Store.prev, same id member, Store.prev]
  · intro id member
    rw [Store.contents, same id member, Store.contents]
  · exact outside.allocated

/-- A quiet continuation at most marks the result as done. -/
theorem recycle_quiet (st : QueueState) (message : MessageId) :
    ∃ isDone, st.recycle Reentry.quiet.onCancel message =
      { st with store := { st.store with isDone := isDone }.reclaim message } := by
  rw [recycle]
  cases (st.store.messages message).result with
  | none => exact ⟨st.store.isDone, rfl⟩
  | some result =>
      simp only [cancel]
      split
      · exact ⟨st.store.isDone, rfl⟩
      · exact ⟨_, rfl⟩

/-- Recycling a message outside the queue leaves the queue alone. -/
theorem Represents.recycle_quiet (represents : Represents st nodes) {message : MessageId}
    (absent : message ∉ nodes) :
    Represents (st.recycle Reentry.quiet.onCancel message) nodes ∧
      (st.recycle Reentry.quiet.onCancel message).queue = st.queue := by
  rcases QueueState.recycle_quiet st message with ⟨isDone, recycled⟩
  rw [recycled]
  have same : Represents { st with store := { st.store with isDone := isDone } } nodes :=
    represents.congr rfl rfl (fun _ _ => rfl) (fun _ _ => rfl) (fun _ _ => rfl) (Nat.le_refl _)
  exact ⟨represents_reclaim same absent, rfl⟩

/-- An open queue takes a ready message at its place in the due order. -/
theorem Represents.enqueueMessage_place (represents : Represents st nodes)
    (isOpen : st.queue.mQuitting = false) {message : MessageId} (ready : st.Ready message)
    (when : Nat) :
    ∃ st' front back, st.enqueueMessage Reentry.quiet.onCancel message when = .ok (st', true) ∧
      Relinks { st with store := st.store.stamp message when } st' (message :: nodes) ∧
      nodes = front ++ back ∧ Represents st' (front ++ message :: back) ∧
      (when = 0 → front = []) ∧
      (when ≠ 0 → (∀ other ∈ front, st.dueTime other ≤ when) ∧
        ∀ other ∈ back, when < st.dueTime other) := by
  have absent := represents.not_mem_of_free ready.free
  rcases enqueueMessage_ready Reentry.quiet.onCancel represents isOpen ready when with
    ⟨st', returned, represents', relinks⟩
  have due : ∀ id, st'.dueTime id = if id = message then when else st.dueTime id := by
    intro id
    rw [relinks.dueTime]
    by_cases same : id = message <;> simp [dueTime, same]
  have distinct : ∀ other ∈ nodes, other ≠ message := fun other member same =>
    absent (same ▸ member)
  have ordered : DueOrdered st'.dueTime nodes := by
    apply List.Pairwise.imp_of_mem _ represents.ordered
    intro earlier later earlierMem laterMem order
    rwa [due, due, if_neg (distinct earlier earlierMem), if_neg (distinct later laterMem)]
  rcases insertDue_place ordered message with ⟨front, back, split, placed, atFront, between⟩
  rw [due, if_pos rfl] at atFront between
  rw [placed] at represents'
  refine ⟨st', front, back, returned, relinks, split, represents', atFront, fun later => ?_⟩
  rcases between later with ⟨dueBefore, dueAfter⟩
  subst split
  constructor
  · intro other member
    have bound := dueBefore other member
    rwa [due, if_neg (distinct other (by simp [member]))] at bound
  · intro other member
    have bound := dueAfter other member
    rwa [due, if_neg (distinct other (by simp [member]))] at bound

/-- What `enqueueMessage` does with a fresh message: it is accepted at its place
in the due order, dropped by a quitting queue, or refused without a target. -/
theorem Represents.enqueueMessage (represents : Represents st nodes) {message : MessageId}
    (fresh : st.Fresh message) (when : Nat) :
    ((st.store.messages message).target = none ∧
        st.enqueueMessage Reentry.quiet.onCancel message when =
          .error (.illegalArgumentException "Message must have a target")) ∨
      (∃ st', st.enqueueMessage Reentry.quiet.onCancel message when = .ok (st', false) ∧
        st.queue.mQuitting = true ∧ Represents st' nodes ∧ st'.queue = st.queue) ∨
      ∃ st' front back, st.enqueueMessage Reentry.quiet.onCancel message when = .ok (st', true) ∧
        nodes = front ++ back ∧ Represents st' (front ++ message :: back) ∧
        st.queue.mQuitting = false ∧ st'.queue.mQuitting = false ∧
        (when = 0 → front = []) ∧
        (when ≠ 0 → (∀ other ∈ front, st.dueTime other ≤ when) ∧
          ∀ other ∈ back, when < st.dueTime other) := by
  have absent := represents.not_mem_of_free fresh.free
  have free : (st.store.messages message).isInUse = false := fresh.free
  cases target : (st.store.messages message).target with
  | none =>
      left
      exact ⟨rfl, by simp [QueueState.enqueueMessage, target]⟩
  | some handler =>
      right
      cases quitting : st.queue.mQuitting with
      | true =>
          left
          rcases represents.recycle_quiet absent with ⟨represents', same⟩
          exact ⟨_, by simp [QueueState.enqueueMessage, target, free, quitting], rfl,
            represents', same⟩
      | false =>
          right
          have ready : st.Ready message :=
            ⟨by simp [Store.contents, Message.unlinked, target], fresh.free, fresh.next,
              fresh.prev, fresh.known⟩
          rcases represents.enqueueMessage_place quitting ready when with
            ⟨st', front, back, returned, relinks, split, represents', place⟩
          exact ⟨st', front, back, returned, split, represents', rfl,
            relinks.mQuitting.trans quitting, place⟩

/-- What one round of `dequeueMessage` does: it takes the head when that is due,
else it leaves the queue as it is. -/
theorem Represents.dequeueMessage (represents : Represents st nodes) (now : Nat) :
    ((st.dequeueMessage now).1 = st ∧ ∀ id, (st.dequeueMessage now).2 ≠ .message id) ∨
      ∃ id rest, (st.dequeueMessage now).2 = .message id ∧ nodes = id :: rest ∧
        st.dueTime id ≤ now ∧ Represents (st.dequeueMessage now).1 rest ∧
        st.queue.mQuitting = false ∧ (st.dequeueMessage now).1.queue.mQuitting = false := by
  have headEq := represents.linked.head_eq
  cases quitting : st.queue.mQuitting with
  | true => simp [QueueState.dequeueMessage, quitting]
  | false =>
      cases nodes with
      | nil =>
          simp only [List.head?_nil] at headEq
          simp [QueueState.dequeueMessage, quitting, headEq]
      | cons id rest =>
          simp only [List.head?_cons] at headEq
          by_cases early : now < (st.store.messages id).when
          · simp [QueueState.dequeueMessage, quitting, headEq, early]
          · right
            have represents₀ : Represents st ([] ++ id :: rest) := represents
            have unlinked := unlinkHead_represents represents₀
            have relinks := unlinkHead_relinks represents₀
            have absent := (List.nodup_cons.mp represents.nodup).1
            refine ⟨id, rest, by simp [QueueState.dequeueMessage, quitting, headEq, early], rfl,
              Nat.not_lt.mp early, ?_, rfl, ?_⟩
            · have dequeued : (st.dequeueMessage now).1 =
                  { st.unlinkHead (st.store.messages id).nextMessage with
                    store := ((st.unlinkHead (st.store.messages id).nextMessage).store.setPrev id
                      none).setNext id none } := by
                simp [QueueState.dequeueMessage, quitting, headEq, early]
              rw [dequeued]
              have distinct : ∀ other ∈ rest, other ≠ id := fun other member same =>
                absent (same ▸ member)
              apply unlinked.congr
              · rfl
              · rfl
              · intro other member
                simp [distinct other member]
              · intro other member
                simp [distinct other member]
              · simp
              · simp
            · simp [QueueState.dequeueMessage, quitting, headEq, early, relinks.mQuitting]

/-- The loop of `quit` follows the links from its cursor; recycling a message
changes its own links only. -/
theorem recycleAll_quiet {fuel : Nat} {start : Option MessageId}
    (path : LinkPath st.store.next start nodes none) (nodup : nodes.Nodup)
    (enough : nodes.length < fuel) :
    ∃ st', recycleAll Reentry.quiet.onCancel fuel st start = .ok st' ∧
      st'.queue = st.queue := by
  induction nodes generalizing st fuel start with
  | nil =>
      rw [LinkPath.nil_iff] at path
      subst path
      cases fuel with
      | zero => exact absurd enough (by simp)
      | succ fuel => exact ⟨st, rfl, rfl⟩
  | cons id rest ih =>
      rcases path with ⟨started, behind⟩
      subst started
      rcases List.nodup_cons.mp nodup with ⟨absent, nodup⟩
      cases fuel with
      | zero => exact absurd enough (by simp)
      | succ fuel =>
          rcases recycle_quiet st id with ⟨isDone, recycled⟩
          have behind' : LinkPath (st.recycle Reentry.quiet.onCancel id).store.next
              (st.store.messages id).nextMessage rest none := by
            rw [recycled]
            apply behind.congr
            intro other member
            exact Store.next_reclaim_of_ne _ _ fun same => absent (same ▸ member)
          rcases ih behind' nodup (by simpa using enough) with ⟨st', returned, same⟩
          refine ⟨st', by simpa [recycleAll] using returned, same.trans ?_⟩
          rw [recycled]

/-- `quit` always returns; the first one of a queue that may quit empties it. -/
theorem Represents.quit (represents : Represents st nodes) :
    ∃ st' done, st.quit Reentry.quiet.onCancel = .ok (st', done) ∧
      (st' = st ∨ Represents st' []) := by
  cases allowed : st.queue.mQuitAllowed with
  | false => exact ⟨st, false, by simp [QueueState.quit, allowed], .inl rfl⟩
  | true =>
      cases quitting : st.queue.mQuitting with
      | true => exact ⟨st, true, by simp [QueueState.quit, allowed, quitting], .inl rfl⟩
      | false =>
          have path : LinkPath
              ({ st with queue := { st.queue with mQuitting := true } } : QueueState).store.next
              st.queue.mHeadMessage nodes none := represents.linked.forward
          rcases recycleAll_quiet path represents.nodup
            (Nat.lt_succ_of_le represents.length_le) with ⟨st', returned, same⟩
          refine ⟨{ st' with queue := { st'.queue with mHeadMessage := none, mTailMessage := none } },
            true, ?_, .inr ⟨Linked.empty, List.Pairwise.nil, by simp, by simp⟩⟩
          rw [QueueState.quit, if_neg (by simp [allowed]), if_neg (by simp [quitting])]
          simp only [returned]

end Steps

/-! ## Whole runs -/

/-- The queue represents some list of messages, the empty one once it quits. -/
def WellFormed (st : QueueState) : Prop :=
  ∃ nodes, Represents st nodes ∧ (st.queue.mQuitting = true → nodes = [])

theorem quiet_prepared (st : QueueState) : Reentry.quiet.Prepared st := by
  constructor
  · exact fun _ => List.nodup_nil
  · intro _ _ _ id member
    exact absurd member (by simp [Reentry.quiet])
  · intro _ _ id member
    exact absurd member (by simp [Reentry.quiet])

theorem wellFormed_step {st st' : QueueState} (wellFormed : WellFormed st) (step : Step st st') :
    WellFormed st' := by
  rcases wellFormed with ⟨nodes, represents, drained⟩
  cases step with
  | elsewhere outside =>
      refine ⟨nodes, represents.elsewhere outside, ?_⟩
      rw [outside.queue]
      exact drained
  | @enqueueMessage message when _ _ fresh returned =>
      rcases represents.enqueueMessage fresh when with
        ⟨_, refused⟩ | ⟨_, dropped, quitting, represents', _⟩ |
          ⟨_, _, _, accepted, _, represents', _, isOpen, _⟩
      · rw [refused] at returned
        cases returned
      · rw [dropped] at returned
        cases returned
        exact ⟨nodes, represents', fun _ => drained quitting⟩
      · rw [accepted] at returned
        cases returned
        refine ⟨_, represents', fun quitting => ?_⟩
        rw [isOpen] at quitting
        exact absurd quitting (by simp)
  | dequeueMessage now =>
      rcases represents.dequeueMessage now with
        ⟨same, _⟩ | ⟨_, rest, _, _, _, represents', _, isOpen⟩
      · rw [same]
        exact ⟨nodes, represents, drained⟩
      · refine ⟨rest, represents', fun quitting => ?_⟩
        rw [isOpen] at quitting
        exact absurd quitting (by simp)
  | @remove removal _ _ returned =>
      rcases remove_spec represents drained (quiet_prepared st) removal with
        ⟨_, _, nodes', returned', represents', drained', _⟩
      rw [returned] at returned'
      cases returned'
      exact ⟨nodes', represents', drained'⟩
  | quit returned =>
      rcases represents.quit with ⟨_, _, returned', same | emptied⟩
      · rw [returned] at returned'
        cases returned'
        rw [same]
        exact ⟨nodes, represents, drained⟩
      · rw [returned] at returned'
        cases returned'
        exact ⟨[], emptied, fun _ => rfl⟩

theorem reachable_wellFormed {st : QueueState} (reachable : Reachable IsNew Step st) :
    WellFormed st := by
  apply reachable.invariant
  · rintro st ⟨quitAllowed, isNew⟩
    refine ⟨[], ⟨?_, List.Pairwise.nil, by simp, by simp⟩, fun _ => rfl⟩
    rw [isNew]
    exact Linked.empty
  · intro st st' _ wellFormed step
    exact wellFormed_step wellFormed step

/-- In every reachable state the links form one doubly linked list in the order of
due times, a fresh message is enqueued at its place without following a null link,
`dequeueMessage` takes at most the head and only when it is due, and the removals
and `quit` return. -/
theorem reachable_queue {st : QueueState} (reachable : Reachable IsNew Step st) :
    ∃ nodes, LinkPath st.store.next st.queue.mHeadMessage nodes none ∧
      LinkPath st.store.prev st.queue.mTailMessage nodes.reverse none ∧
      nodes.Nodup ∧ (st.queue.mHeadMessage = none ↔ st.queue.mTailMessage = none) ∧
      DueOrdered st.dueTime nodes ∧
      (∀ message when, st.Fresh message →
        ((st.store.messages message).target = none ∧
            st.enqueueMessage Reentry.quiet.onCancel message when =
              .error (.illegalArgumentException "Message must have a target")) ∨
          (∃ st', st.enqueueMessage Reentry.quiet.onCancel message when = .ok (st', false) ∧
            st.queue.mQuitting = true ∧ Represents st' nodes) ∨
          ∃ st' front back,
            st.enqueueMessage Reentry.quiet.onCancel message when = .ok (st', true) ∧
            nodes = front ++ back ∧ Represents st' (front ++ message :: back) ∧
            (when = 0 → front = []) ∧
            (when ≠ 0 → (∀ other ∈ front, st.dueTime other ≤ when) ∧
              ∀ other ∈ back, when < st.dueTime other)) ∧
      (∀ now, ((st.dequeueMessage now).1 = st ∧ ∀ id, (st.dequeueMessage now).2 ≠ .message id) ∨
        ∃ id rest, (st.dequeueMessage now).2 = .message id ∧ nodes = id :: rest ∧
          st.dueTime id ≤ now ∧ Represents (st.dequeueMessage now).1 rest) ∧
      (∀ removal, ∃ st' found,
        st.remove Reentry.quiet.onCancel removal = .ok (st', found) ∧ WellFormed st') ∧
      ∃ st' done, st.quit Reentry.quiet.onCancel = .ok (st', done) ∧ WellFormed st' := by
  rcases reachable_wellFormed reachable with ⟨nodes, represents, drained⟩
  refine ⟨nodes, represents.linked.forward, represents.linked.backward, represents.nodup,
    represents.linked.head_none_iff_tail_none, represents.ordered, ?_, ?_, ?_, ?_⟩
  · intro message when fresh
    rcases represents.enqueueMessage fresh when with
      refused | ⟨st', dropped, quitting, represents', _⟩ |
        ⟨st', front, back, accepted, split, represents', _, _, place⟩
    · exact .inl refused
    · exact .inr (.inl ⟨st', dropped, quitting, represents'⟩)
    · exact .inr (.inr ⟨st', front, back, accepted, split, represents', place⟩)
  · intro now
    rcases represents.dequeueMessage now with
      waits | ⟨id, rest, taken, split, due, represents', _⟩
    · exact .inl waits
    · exact .inr ⟨id, rest, taken, split, due, represents'⟩
  · intro removal
    rcases remove_spec represents drained (quiet_prepared st) removal with
      ⟨st', found, _, returned, _⟩
    exact ⟨st', found, returned,
      wellFormed_step ⟨nodes, represents, drained⟩ (.remove returned)⟩
  · rcases represents.quit with ⟨st', done, returned, _⟩
    exact ⟨st', done, returned, wellFormed_step ⟨nodes, represents, drained⟩ (.quit returned)⟩

/-- A queue with one unsent message, and the same after sending it. -/
def oneUnsent : QueueState where
  store := { messages := fun _ => { target := some 7 }, allocated := 1 }

theorem reachable_oneSent :
    ∃ st', oneUnsent.enqueueMessage Reentry.quiet.onCancel 0 5 = .ok (st', true) ∧
      ∃ id rest, (st'.dequeueMessage 5).2 = .message id ∧ st'.dueTime id ≤ 5 ∧
        Represents (st'.dequeueMessage 5).1 rest := by
  refine ⟨_, rfl, ?_⟩
  have start : Reachable IsNew Step oneUnsent := .initial ⟨true, rfl⟩
  have sent := start.step (.enqueueMessage
    (⟨by decide, by decide, by decide, by decide⟩ : oneUnsent.Fresh 0)
    (rfl : oneUnsent.enqueueMessage Reentry.quiet.onCancel 0 5 = .ok (_, true)))
  rcases reachable_queue sent with ⟨nodes, _, _, _, _, _, _, dequeues, _⟩
  rcases dequeues 5 with ⟨_, waits⟩ | ⟨id, rest, taken, _, due, represents⟩
  · exact absurd (by decide) (waits 0)
  · exact ⟨id, rest, taken, due, represents⟩

end QueueState

end Mindroid
