import Mathlib.Data.Finset.Card
import Mindroid.Os.QueueLayout

/-!
# Removals under reentrant continuations

Recycling a removed message completes its result promise, and a continuation of
that promise may enqueue messages into the queue the removal is working on.  The
first loop of a removal has then already read the successor `nextMessage` and
makes it the head in its next round; the second loop reads its links anew.

The results below compare a queue before and after a step by two relations: what
may be in the queue afterwards (`Follows`), and that nothing which the removal
does not match is missing (`KeepsOthers`).
-/

set_option autoImplicit false

namespace Mindroid

/-- The fields that removals and recycling look at. -/
structure Message.SamePayload (left right : Message) : Prop where
  target : left.target = right.target
  what : left.what = right.what
  obj : left.obj = right.obj
  callback : left.callback = right.callback
  result : left.result = right.result

theorem Removal.accepts_congr (removal : Removal) {left right : Message}
    (same : left.SamePayload right) : removal.accepts left = removal.accepts right := by
  cases removal with
  | messages handler what object =>
      cases handler <;>
        simp [accepts, QueueState.matchesWhat, same.target, same.what, same.obj]
  | callbacks handler runnable object =>
      cases handler <;> cases runnable <;>
        simp [accepts, QueueState.matchesCallback, same.target, same.callback, same.obj]
  | callbacksAndMessages handler object =>
      cases handler <;> simp [accepts, QueueState.matchesTarget, same.target, same.obj]

namespace QueueState

open Foundation

/-- The mark that `enqueueMessage` checks. -/
def inUse (st : QueueState) (id : MessageId) : Bool :=
  (st.store.contents id).isInUse

/-- A message that `enqueueMessage` accepts: obtained, filled in and not sent yet. -/
structure Ready (st : QueueState) (id : MessageId) : Prop where
  target : (st.store.contents id).target ≠ none
  free : st.inUse id = false
  next : st.store.next id = none
  prev : st.store.prev id = none
  known : id < st.store.allocated

/-- An open queue accepts a ready message and links it at its place. -/
theorem enqueueMessage_ready {st : QueueState} {nodes : List MessageId} {message : MessageId}
    (onCancel : OnCancel) (represents : Represents st nodes) (isOpen : st.queue.mQuitting = false)
    (ready : st.Ready message) (when : Nat) :
    ∃ st', st.enqueueMessage onCancel message when = .ok (st', true) ∧
      Represents st' (insertDue st'.dueTime message nodes) ∧
      Relinks { st with store := st.store.stamp message when } st' (message :: nodes) := by
  have hasTarget : (st.store.messages message).target ≠ none := ready.target
  have free : (st.store.messages message).isInUse = false := ready.free
  rcases insertMessage_spec represents (represents.not_mem_of_free ready.free) ready.next
    ready.prev ready.known when with ⟨st', inserted, represents', relinks⟩
  refine ⟨st', ?_, represents', relinks⟩
  rw [enqueueMessage, if_neg hasTarget, free, isOpen, inserted]
  rfl

/-! ## What a continuation does to the queue -/

/-- What enqueueing some messages changes: their contents are stamped, links
change within the queue, and everything else stays. -/
structure Enqueues (time : MessageId → Nat) (st st' : QueueState)
    (fresh nodes : List MessageId) : Prop where
  stamped : ∀ id ∈ fresh, st'.store.contents id =
    { (st.store.contents id).markInUse with when := time id }
  contents : ∀ id, id ∉ fresh → st'.store.contents id = st.store.contents id
  next : ∀ id, id ∉ fresh → id ∉ nodes → st'.store.next id = st.store.next id
  prev : ∀ id, id ∉ fresh → id ∉ nodes → st'.store.prev id = st.store.prev id
  allocated : st'.store.allocated = st.store.allocated
  isDone : st'.store.isDone = st.store.isDone
  mQuitting : st'.queue.mQuitting = st.queue.mQuitting

theorem Enqueues.refl {time : MessageId → Nat} (st : QueueState) (nodes : List MessageId) :
    Enqueues time st st [] nodes := by
  constructor <;> simp

/-- One enqueued message, followed by others. -/
theorem Enqueues.cons {time : MessageId → Nat} {st st' st'' : QueueState}
    {message : MessageId} {fresh nodes nodes' : List MessageId}
    (first : Relinks { st with store := st.store.stamp message (time message) } st'
      (message :: nodes))
    (rest : Enqueues time st' st'' fresh nodes') (absent : message ∉ fresh)
    (members : ∀ id, id ∈ nodes' → id = message ∨ id ∈ nodes) :
    Enqueues time st st'' (message :: fresh) nodes where
  stamped id member := by
    rcases List.mem_cons.mp member with same | inFresh
    · subst same
      rw [rest.contents id absent, first.contents]
      simp
    · have distinct : id ≠ message := fun same => absent (same ▸ inFresh)
      rw [rest.stamped id inFresh, first.contents]
      simp [distinct]
  contents id outside := by
    rcases not_or.mp (List.mem_cons.not.mp outside) with ⟨distinct, notFresh⟩
    rw [rest.contents id notFresh, first.contents]
    simp [distinct]
  next id outside notQueued := by
    rcases not_or.mp (List.mem_cons.not.mp outside) with ⟨distinct, notFresh⟩
    rw [rest.next id notFresh fun member => (members id member).elim distinct notQueued,
      first.next id (by simp [distinct, notQueued])]
    simp
  prev id outside notQueued := by
    rcases not_or.mp (List.mem_cons.not.mp outside) with ⟨distinct, notFresh⟩
    rw [rest.prev id notFresh fun member => (members id member).elim distinct notQueued,
      first.prev id (by simp [distinct, notQueued])]
    simp
  allocated := by
    rw [rest.allocated, first.allocated]
    simp
  isDone := by
    rw [rest.isDone, first.isDone]
    simp
  mQuitting := by
    rw [rest.mQuitting, first.mQuitting]

/-- Enqueueing ready messages one after the other inserts each at its place. -/
theorem enqueueEach_spec {time due : MessageId → Nat} {st : QueueState}
    {fresh nodes : List MessageId} (represents : Represents st nodes)
    (isOpen : st.queue.mQuitting = false) (nodesDue : ∀ id ∈ nodes, st.dueTime id = due id)
    (freshDue : ∀ id ∈ fresh, time id = due id) (nodup : fresh.Nodup)
    (ready : ∀ id ∈ fresh, st.Ready id) :
    Represents (enqueueEach time fresh st) (insertAllDue due fresh nodes) ∧
      Enqueues time st (enqueueEach time fresh st) fresh nodes := by
  induction fresh generalizing st nodes with
  | nil => exact ⟨represents, Enqueues.refl st nodes⟩
  | cons message fresh ih =>
      rcases List.nodup_cons.mp nodup with ⟨absent, nodup⟩
      rcases enqueueMessage_ready (fun _ st => st) represents isOpen (ready message (by simp))
        (time message) with ⟨st', enqueued, represents', relinks⟩
      have dueAfter : ∀ id, st'.dueTime id =
          if id = message then time message else st.dueTime id := by
        intro id
        rw [relinks.dueTime]
        by_cases same : id = message <;> simp [dueTime, same]
      have inserted : insertDue st'.dueTime message nodes = insertDue due message nodes := by
        apply insertDue_congr
        · intro other member
          have distinct : other ≠ message := fun same =>
            represents.not_mem_of_free (ready message (by simp)).free (same ▸ member)
          rw [dueAfter, if_neg distinct, nodesDue other member]
        · rw [dueAfter, if_pos rfl, freshDue message (by simp)]
      rw [inserted] at represents'
      have step : enqueueEach time (message :: fresh) st = enqueueEach time fresh st' := by
        rw [enqueueEach, enqueued]
      rw [step, insertAllDue_cons]
      have later : ∀ id ∈ fresh, st'.Ready id := by
        intro id member
        have distinct : id ≠ message := fun same => absent (same ▸ member)
        have before := ready id (by simp [member])
        have outside : id ∉ message :: nodes := by
          simp [distinct, represents.not_mem_of_free before.free]
        have sameContents : st'.store.contents id = st.store.contents id := by
          rw [relinks.contents]
          simp [distinct]
        constructor
        · rw [sameContents]
          exact before.target
        · rw [inUse, sameContents]
          exact before.free
        · rw [relinks.next id outside]
          simpa using before.next
        · rw [relinks.prev id outside]
          simpa using before.prev
        · rw [relinks.allocated]
          exact before.known
      rcases ih represents' (by rw [relinks.mQuitting]; exact isOpen)
        (by
          intro id member
          rcases mem_insertDue.mp member with same | inNodes
          · rw [dueAfter, if_pos same, same, freshDue message (by simp)]
          · have distinct : id ≠ message := fun same =>
              represents.not_mem_of_free (ready message (by simp)).free (same ▸ inNodes)
            rw [dueAfter, if_neg distinct, nodesDue id inNodes])
        (fun id member => freshDue id (by simp [member])) nodup later with
        ⟨allRepresents, rest⟩
      refine ⟨allRepresents, Enqueues.cons relinks rest absent ?_⟩
      intro id member
      exact mem_insertDue.mp member

/-! ## Comparing a queue before and after -/

/-- Marks are never cleared, and only messages that were free can be new in the
queue. -/
structure Follows (st : QueueState) (nodes : List MessageId) (st' : QueueState)
    (nodes' : List MessageId) : Prop where
  marks : ∀ id, st.inUse id = true → st'.inUse id = true
  members : ∀ id ∈ nodes', id ∈ nodes ∨ st.inUse id = false

/-- The message was enqueued between the two states. -/
def NewlyInUse (st st' : QueueState) (id : MessageId) : Prop :=
  st.inUse id = false ∧ st'.inUse id = true

/-- No message that is kept is missing afterwards: neither one that was queued nor
one enqueued in between. -/
def KeepsOthers (removes : MessageId → Bool) (st : QueueState) (nodes : List MessageId)
    (st' : QueueState) (nodes' : List MessageId) : Prop :=
  ∀ id, removes id = false → id ∈ nodes ∨ NewlyInUse st st' id → id ∈ nodes'

section Compare

variable {st st' st'' : QueueState} {nodes nodes' nodes'' : List MessageId}
  {removes : MessageId → Bool}

theorem Follows.refl (st : QueueState) (nodes : List MessageId) : Follows st nodes st nodes :=
  ⟨fun _ marked => marked, fun _ member => .inl member⟩

theorem Follows.free_of_free (follows : Follows st nodes st' nodes') {id : MessageId}
    (free : st'.inUse id = false) : st.inUse id = false := by
  cases marked : st.inUse id with
  | false => rfl
  | true =>
      rw [follows.marks id marked] at free
      exact absurd free (by simp)

theorem Follows.trans (first : Follows st nodes st' nodes')
    (second : Follows st' nodes' st'' nodes'') : Follows st nodes st'' nodes'' where
  marks id marked := second.marks id (first.marks id marked)
  members id member := by
    rcases second.members id member with inNodes' | free
    · exact first.members id inNodes'
    · exact .inr (first.free_of_free free)

/-- A message that is in use but not queued never comes back. -/
theorem Follows.absent_stays (follows : Follows st nodes st' nodes') {id : MessageId}
    (absent : id ∉ nodes) (marked : st.inUse id = true) : id ∉ nodes' := by
  intro member
  rcases follows.members id member with inNodes | free
  · exact absent inNodes
  · rw [marked] at free
    exact absurd free (by simp)

theorem KeepsOthers.refl (st : QueueState) (nodes : List MessageId) :
    KeepsOthers removes st nodes st nodes := by
  rintro id _ (member | ⟨free, marked⟩)
  · exact member
  · rw [free] at marked
    exact absurd marked (by simp)

theorem KeepsOthers.trans (first : KeepsOthers removes st nodes st' nodes')
    (second : KeepsOthers removes st' nodes' st'' nodes'') :
    KeepsOthers removes st nodes st'' nodes'' := by
  rintro id kept (member | ⟨free, marked⟩)
  · exact second id kept (.inl (first id kept (.inl member)))
  · cases between : st'.inUse id with
    | true => exact second id kept (.inl (first id kept (.inr ⟨free, between⟩)))
    | false => exact second id kept (.inr ⟨between, marked⟩)

/-- The last part of a run that keeps the others keeps them, too, when all it
starts with was queued before or is newly in use. -/
theorem KeepsOthers.of_trans (whole : KeepsOthers removes st nodes st'' nodes'')
    (first : Follows st nodes st' nodes') (second : Follows st' nodes' st'' nodes'')
    (members : ∀ id ∈ nodes', id ∈ nodes ∨ NewlyInUse st st' id) :
    KeepsOthers removes st' nodes' st'' nodes'' := by
  rintro id kept (member | ⟨free, marked⟩)
  · rcases members id member with inNodes | ⟨free, marked⟩
    · exact whole id kept (.inl inNodes)
    · exact whole id kept (.inr ⟨free, second.marks id marked⟩)
  · exact whole id kept (.inr ⟨first.free_of_free free, marked⟩)

/-- So does the first part. -/
theorem KeepsOthers.of_trans_left (whole : KeepsOthers removes st nodes st'' nodes'')
    (marked : ∀ id ∈ nodes, st.inUse id = true) (first : Follows st nodes st' nodes')
    (second : Follows st' nodes' st'' nodes'') : KeepsOthers removes st nodes st' nodes' := by
  intro id kept queued
  have used : st'.inUse id = true := by
    rcases queued with member | ⟨_, used⟩
    · exact first.marks id (marked id member)
    · exact used
  have back : id ∈ nodes'' := by
    rcases queued with member | ⟨free, _⟩
    · exact whole id kept (.inl member)
    · exact whole id kept (.inr ⟨free, second.marks id used⟩)
  apply Classical.byContradiction
  intro absent
  exact second.absent_stays absent used back

end Compare

/-! ## Recycling with a continuation -/

end QueueState

namespace Reentry

open Foundation

variable (reentry : Reentry) (origin : QueueState)

/-- The time a message is queued for: its own when it is in the queue already,
else the one the continuation sends it for. -/
def due (id : MessageId) : Nat :=
  if origin.inUse id then origin.dueTime id else reentry.time id

/-- The messages that recycling a message enqueues, when the given results are
done already. -/
def enqueuedBy (isDone : ObjectId → Bool) (id : MessageId) : List MessageId :=
  match (origin.store.contents id).result with
  | none => []
  | some result => if isDone result then [] else reentry.sends result

/-- Which results are done after recycling a message. -/
def doneAfter (isDone : ObjectId → Bool) (id : MessageId) : ObjectId → Bool :=
  match (origin.store.contents id).result with
  | none => isDone
  | some result => Function.update isDone result true

/-- Continuations send ready messages, each of them once. -/
structure Prepared : Prop where
  nodup : ∀ result, (reentry.sends result).Nodup
  disjoint : ∀ left right, left ≠ right → ∀ id ∈ reentry.sends left, id ∉ reentry.sends right
  ready : ∀ result, origin.store.isDone result = false →
    ∀ id ∈ reentry.sends result, origin.Ready id

/-- What holds of the queue at every round of a removal that was called in the
state `origin`. -/
structure Running (st : QueueState) (nodes : List MessageId) : Prop where
  represents : st.Represents nodes
  isOpen : st.queue.mQuitting = false
  payload : ∀ id ∈ nodes, (st.store.contents id).SamePayload (origin.store.contents id)
  dueTime : ∀ id ∈ nodes, st.dueTime id = reentry.due origin id
  waiting : ∀ result, st.store.isDone result = false → ∀ id ∈ reentry.sends result,
    st.Ready id ∧ origin.inUse id = false ∧
      st.store.contents id = origin.store.contents id

/-- The state in which the continuation of a recycled message runs. -/
def completed (st : QueueState) (id : MessageId) : QueueState :=
  { st with
    store := { st.store with isDone := doneAfter origin st.store.isDone id } }

namespace Running

variable {reentry : Reentry} {origin st : QueueState} {nodes : List MessageId}
  {message : MessageId}

/-- A message the continuations have not sent yet is due when they send it for. -/
theorem due_of_waiting (running : Running reentry origin st nodes) {result : ObjectId}
    (open_ : st.store.isDone result = false) :
    ∀ id ∈ reentry.sends result, reentry.time id = reentry.due origin id := by
  intro id member
  rw [due, (running.waiting result open_ id member).2.1]
  rfl

/-- The continuation of a recycled message inserts what it sends. -/
theorem cancel (running : Running reentry origin st nodes) (prepared : reentry.Prepared origin)
    (payload : (st.store.contents message).result = (origin.store.contents message).result) :
    ∃ st', (match (st.store.messages message).result with
        | some result => st.cancel reentry.onCancel result
        | none => st) = st' ∧
      st'.Represents (insertAllDue (reentry.due origin)
        (reentry.enqueuedBy origin st.store.isDone message) nodes) ∧
      QueueState.Enqueues reentry.time (completed origin st message) st'
        (reentry.enqueuedBy origin st.store.isDone message) nodes := by
  refine ⟨_, rfl, ?_⟩
  have field : (st.store.messages message).result = (origin.store.contents message).result :=
    payload
  rw [field, enqueuedBy, completed, doneAfter]
  cases (origin.store.contents message).result with
  | none => exact ⟨running.represents, QueueState.Enqueues.refl st nodes⟩
  | some result =>
      cases done : st.store.isDone result with
      | true =>
          have same : Function.update st.store.isDone result true = st.store.isDone := by
            rw [← done, Function.update_eq_self]
          simp only [QueueState.cancel, done, if_true, same]
          exact ⟨running.represents, QueueState.Enqueues.refl st nodes⟩
      | false =>
          simp only [QueueState.cancel, done, Bool.false_eq_true, if_false, onCancel]
          apply QueueState.enqueueEach_spec
          · exact running.represents.congr rfl rfl (fun _ _ => rfl) (fun _ _ => rfl)
              (fun _ _ => rfl) (Nat.le_refl _)
          · exact running.isOpen
          · exact running.dueTime
          · exact running.due_of_waiting done
          · exact prepared.nodup result
          · intro id member
            rcases running.waiting result done id member with ⟨ready, _⟩
            exact ⟨ready.target, ready.free, ready.next, ready.prev, ready.known⟩

end Running

/-- What recycling a message that is already unlinked does to the queue: the
messages sent by its continuation are inserted and become used, no others. -/
structure Recycled (st st' : QueueState) (nodes : List MessageId) (message : MessageId) :
    Prop where
  running : Running reentry origin st' (insertAllDue (reentry.due origin)
    (reentry.enqueuedBy origin st.store.isDone message) nodes)
  isDone : st'.store.isDone = doneAfter origin st.store.isDone message
  newly : ∀ id, QueueState.NewlyInUse st st' id ↔
    id ∈ reentry.enqueuedBy origin st.store.isDone message
  marks : ∀ id, st.inUse id = true → st'.inUse id = true
  nodup : (reentry.enqueuedBy origin st.store.isDone message).Nodup
  known : ∀ id ∈ reentry.enqueuedBy origin st.store.isDone message, id < st.store.allocated
  allocated : st'.store.allocated = st.store.allocated

namespace Running

variable {reentry : Reentry} {origin st : QueueState} {nodes : List MessageId}
  {message : MessageId}

/-- The messages sent for a result that is not done are waiting. -/
theorem waiting_of_enqueuedBy (running : Running reentry origin st nodes)
    (message : MessageId) :
    ∀ id ∈ reentry.enqueuedBy origin st.store.isDone message,
      st.Ready id ∧ origin.inUse id = false ∧
        st.store.contents id = origin.store.contents id := by
  intro id member
  rw [enqueuedBy] at member
  cases result : (origin.store.contents message).result with
  | none => simp [result] at member
  | some result' =>
      cases done : st.store.isDone result' with
      | true => simp [result, done] at member
      | false => exact running.waiting result' done id (by simpa [result, done] using member)

theorem enqueuedBy_nodup (prepared : reentry.Prepared origin) (isDone : ObjectId → Bool)
    (message : MessageId) :
    (reentry.enqueuedBy origin isDone message).Nodup := by
  rw [enqueuedBy]
  split
  · exact List.nodup_nil
  · split
    · exact List.nodup_nil
    · exact prepared.nodup _

/-- Messages of results that are still not done are not the ones just sent. -/
theorem not_mem_enqueuedBy (prepared : reentry.Prepared origin) {isDone : ObjectId → Bool}
    {result : ObjectId} (open_ : doneAfter origin isDone message result = false) :
    isDone result = false ∧
      ∀ id ∈ reentry.sends result, id ∉ reentry.enqueuedBy origin isDone message := by
  rw [doneAfter] at open_
  rw [enqueuedBy]
  cases own : (origin.store.contents message).result with
  | none => exact ⟨by simpa [own] using open_, by simp⟩
  | some result' =>
      rw [own] at open_
      simp only
      by_cases same : result = result'
      · simp [same] at open_
      · refine ⟨by simpa [same] using open_, ?_⟩
        intro id member
        split
        · simp
        · exact prepared.disjoint result result' same id member

theorem recycle (running : Running reentry origin st nodes) (prepared : reentry.Prepared origin)
    (absent : message ∉ nodes) (marked : st.inUse message = true)
    (payload : (st.store.contents message).result = (origin.store.contents message).result) :
    Recycled reentry origin st (st.recycle reentry.onCancel message) nodes message := by
  rcases running.cancel prepared payload with ⟨st', cancelled, represents, enqueues⟩
  have recycled : st.recycle reentry.onCancel message =
      { st' with store := st'.store.reclaim message } :=
    congrArg (fun st : QueueState => { st with store := st.store.reclaim message }) cancelled
  have nodup := enqueuedBy_nodup prepared st.store.isDone message
  have waiting := running.waiting_of_enqueuedBy message
  have distinct : ∀ id ∈ reentry.enqueuedBy origin st.store.isDone message, id ≠ message := by
    intro id member same
    have free := (waiting id member).1.free
    rw [same, marked] at free
    exact absurd free (by simp)
  have inserted : ∀ id ∈ insertAllDue (reentry.due origin)
      (reentry.enqueuedBy origin st.store.isDone message) nodes, id ≠ message := by
    intro id member
    rcases mem_insertAllDue.mp member with inFresh | inNodes
    · exact distinct id inFresh
    · exact fun same => absent (same ▸ inNodes)
  -- what each message holds afterwards: the recycled one, the sent ones, the others
  have own : (st'.store.reclaim message).contents message = { flags := flagInUse } := by
    simp
  have sent : ∀ id ∈ reentry.enqueuedBy origin st.store.isDone message,
      (st'.store.reclaim message).contents id =
        { (origin.store.contents id).markInUse with when := reentry.time id } := by
    intro id member
    rw [Store.contents_reclaim, Function.update_of_ne (distinct id member),
      enqueues.stamped id member, ← (waiting id member).2.2]
    rfl
  have other : ∀ id, id ∉ reentry.enqueuedBy origin st.store.isDone message → id ≠ message →
      (st'.store.reclaim message).contents id = st.store.contents id := by
    intro id notSent notOwn
    rw [Store.contents_reclaim, Function.update_of_ne notOwn, enqueues.contents id notSent]
    rfl
  have isDone : (st'.store.reclaim message).isDone = doneAfter origin st.store.isDone message := by
    rw [Store.isDone_reclaim, enqueues.isDone]
    rfl
  have allocated : (st'.store.reclaim message).allocated = st.store.allocated := by
    rw [Store.allocated_reclaim, enqueues.allocated]
    rfl
  rw [recycled]
  constructor
  · constructor
    · exact QueueState.represents_reclaim represents fun member => inserted message member rfl
    · rw [enqueues.mQuitting]
      exact running.isOpen
    · intro id member
      by_cases inFresh : id ∈ reentry.enqueuedBy origin st.store.isDone message
      · rw [sent id inFresh]
        constructor <;> rfl
      · have inNodes := (mem_insertAllDue.mp member).resolve_left inFresh
        rw [other id inFresh (inserted id member)]
        exact running.payload id inNodes
    · intro id member
      by_cases inFresh : id ∈ reentry.enqueuedBy origin st.store.isDone message
      · rw [QueueState.dueTime, sent id inFresh, due, (waiting id inFresh).2.1]
        rfl
      · have inNodes := (mem_insertAllDue.mp member).resolve_left inFresh
        rw [QueueState.dueTime, other id inFresh (inserted id member)]
        exact running.dueTime id inNodes
    · intro result open_ id member
      rw [isDone] at open_
      rcases not_mem_enqueuedBy prepared open_ with ⟨openBefore, notSent⟩
      rcases running.waiting result openBefore id member with ⟨ready, unusedBefore, same⟩
      have notOwn : id ≠ message := by
        intro equal
        have free := ready.free
        rw [equal, marked] at free
        exact absurd free (by simp)
      have notQueued := running.represents.not_mem_of_free ready.free
      have sameContents := other id (notSent id member) notOwn
      refine ⟨⟨?_, ?_, ?_, ?_, ?_⟩, unusedBefore, sameContents.trans same⟩
      · rw [sameContents]
        exact ready.target
      · rw [QueueState.inUse, sameContents]
        exact ready.free
      · rw [Store.next_reclaim_of_ne _ _ notOwn, enqueues.next id (notSent id member) notQueued]
        exact ready.next
      · rw [Store.prev_reclaim, Function.update_of_ne notOwn,
          enqueues.prev id (notSent id member) notQueued]
        exact ready.prev
      · rw [allocated]
        exact ready.known
  · exact isDone
  · intro id
    constructor
    · rintro ⟨free, markedAfter⟩
      apply Classical.byContradiction
      intro notSent
      have notOwn : id ≠ message := by
        intro equal
        rw [equal, marked] at free
        exact absurd free (by simp)
      rw [QueueState.inUse, other id notSent notOwn] at markedAfter
      rw [QueueState.inUse, markedAfter] at free
      exact absurd free (by simp)
    · intro member
      refine ⟨(waiting id member).1.free, ?_⟩
      rw [QueueState.inUse, sent id member]
      exact Message.isInUse_markInUse (origin.store.contents id)
  · intro id markedBefore
    by_cases same : id = message
    · rw [same, QueueState.inUse, own]
      rfl
    · have notSent : id ∉ reentry.enqueuedBy origin st.store.isDone message := by
        intro member
        have free := (waiting id member).1.free
        rw [markedBefore] at free
        exact absurd free (by simp)
      rw [QueueState.inUse, other id notSent same]
      exact markedBefore
  · exact nodup
  · exact fun id member => (waiting id member).1.known
  · exact allocated

end Running

/-! ## One removed message -/

namespace Running

variable {reentry : Reentry} {origin st st' : QueueState} {nodes nodes' touched : List MessageId}
  {message : MessageId}

/-- Relinking within the queue does not concern the waiting messages. -/
theorem relinks (running : Running reentry origin st nodes)
    (relinks : QueueState.Relinks st st' touched) (inside : ∀ id ∈ touched, id ∈ nodes)
    (represents : st'.Represents nodes') (kept : ∀ id ∈ nodes', id ∈ nodes) :
    Running reentry origin st' nodes' where
  represents := represents
  isOpen := relinks.mQuitting.trans running.isOpen
  payload id member := by
    rw [relinks.contents]
    exact running.payload id (kept id member)
  dueTime id member := by
    rw [relinks.dueTime]
    exact running.dueTime id (kept id member)
  waiting result open_ id member := by
    rw [relinks.isDone] at open_
    rcases running.waiting result open_ id member with ⟨ready, unusedBefore, same⟩
    have outside : id ∉ touched := fun inTouched =>
      running.represents.not_mem_of_free ready.free (inside id inTouched)
    rw [relinks.contents]
    refine ⟨⟨?_, ?_, ?_, ?_, ?_⟩, unusedBefore, same⟩
    · rw [relinks.contents]
      exact ready.target
    · rw [QueueState.inUse, relinks.contents]
      exact ready.free
    · rw [relinks.next id outside]
      exact ready.next
    · rw [relinks.prev id outside]
      exact ready.prev
    · rw [relinks.allocated]
      exact ready.known

/-- Unlink a message and recycle it. -/
theorem removeOne (running : Running reentry origin st nodes)
    (prepared : reentry.Prepared origin) (relinks : QueueState.Relinks st st' touched)
    (inside : ∀ id ∈ touched, id ∈ nodes) (represents : st'.Represents nodes')
    (kept : ∀ id ∈ nodes', id ∈ nodes) (member : message ∈ nodes) (absent : message ∉ nodes') :
    Recycled reentry origin st (st'.recycle reentry.onCancel message) nodes' message := by
  have sameUse : st'.inUse = st.inUse := by
    funext id
    rw [QueueState.inUse, QueueState.inUse, relinks.contents]
  have recycled := (running.relinks relinks inside represents kept).recycle prepared absent
    (by rw [sameUse]; exact running.represents.inUse message member)
    (by rw [relinks.contents]; exact (running.payload message member).result)
  constructor
  · rw [← relinks.isDone]
    exact recycled.running
  · rw [← relinks.isDone]
    exact recycled.isDone
  · intro id
    rw [← relinks.isDone, ← recycled.newly, QueueState.NewlyInUse, QueueState.NewlyInUse, sameUse]
  · rw [← sameUse]
    exact recycled.marks
  · rw [← relinks.isDone]
    exact recycled.nodup
  · rw [← relinks.isDone, ← relinks.allocated]
    exact recycled.known
  · rw [recycled.allocated, relinks.allocated]

end Running

end Reentry

namespace QueueState

/-- The free messages. -/
def unused (st : QueueState) : Finset MessageId :=
  (Finset.range st.store.allocated).filter fun id => st.inUse id = false

/-- Queued messages are not free, so that both together are no more than there are. -/
theorem Represents.length_add_unused {st : QueueState} {nodes : List MessageId}
    (represents : Represents st nodes) :
    nodes.length + st.unused.card ≤ st.store.allocated := by
  have apart : Disjoint nodes.toFinset st.unused := by
    apply Finset.disjoint_left.mpr
    intro id member free
    have marked := represents.inUse id (List.mem_toFinset.mp member)
    rw [show (st.store.contents id).isInUse = st.inUse id from rfl,
      (Finset.mem_filter.mp free).2] at marked
    exact absurd marked (by simp)
  have inside : nodes.toFinset ∪ st.unused ⊆ Finset.range st.store.allocated := by
    intro id member
    rcases Finset.mem_union.mp member with queued | free
    · exact Finset.mem_range.mpr (represents.allocated id (List.mem_toFinset.mp queued))
    · exact (Finset.mem_filter.mp free).1
  have bound := Finset.card_le_card inside
  rwa [Finset.card_union_of_disjoint apart, List.toFinset_card_of_nodup represents.nodup,
    Finset.card_range] at bound

end QueueState

namespace Reentry.Recycled

open Foundation QueueState

variable {reentry : Reentry} {origin st st' : QueueState} {nodes nodes' : List MessageId}
  {message : MessageId}

theorem mem (recycled : Recycled reentry origin st st' nodes' message) {id : MessageId} :
    id ∈ insertAllDue (reentry.due origin)
        (reentry.enqueuedBy origin st.store.isDone message) nodes' ↔
      NewlyInUse st st' id ∨ id ∈ nodes' := by
  rw [mem_insertAllDue, recycled.newly]

theorem follows (recycled : Recycled reentry origin st st' nodes' message)
    (kept : ∀ id ∈ nodes', id ∈ nodes) :
    Follows st nodes st' (insertAllDue (reentry.due origin)
      (reentry.enqueuedBy origin st.store.isDone message) nodes') where
  marks := recycled.marks
  members id member := by
    rcases recycled.mem.mp member with ⟨free, _⟩ | inNodes
    · exact .inr free
    · exact .inl (kept id inNodes)

theorem keepsOthers (recycled : Recycled reentry origin st st' nodes' message)
    {removes : MessageId → Bool}
    (dropped : ∀ id ∈ nodes, removes id = false → id ∈ nodes') :
    KeepsOthers removes st nodes st' (insertAllDue (reentry.due origin)
      (reentry.enqueuedBy origin st.store.isDone message) nodes') := by
  rintro id kept (member | newly)
  · exact recycled.mem.mpr (.inr (dropped id member kept))
  · exact recycled.mem.mpr (.inl newly)

/-- Every message sent uses up a free one. -/
theorem unused_card (recycled : Recycled reentry origin st st' nodes' message) :
    st'.unused.card + (reentry.enqueuedBy origin st.store.isDone message).length =
      st.unused.card := by
  have split : st.unused =
      st'.unused ∪ (reentry.enqueuedBy origin st.store.isDone message).toFinset := by
    ext id
    simp only [unused, Finset.mem_union, Finset.mem_filter, Finset.mem_range, List.mem_toFinset,
      recycled.allocated]
    constructor
    · rintro ⟨known, free⟩
      cases marked : st'.inUse id with
      | false => exact .inl ⟨known, rfl⟩
      | true => exact .inr ((recycled.newly id).mp ⟨free, marked⟩)
    · rintro (⟨known, free⟩ | sent)
      · refine ⟨known, ?_⟩
        cases marked : st.inUse id with
        | false => rfl
        | true => exact free.symm.trans (recycled.marks id marked) |>.symm
      · exact ⟨recycled.known id sent, ((recycled.newly id).mpr sent).1⟩
  have apart : Disjoint st'.unused
      (reentry.enqueuedBy origin st.store.isDone message).toFinset := by
    apply Finset.disjoint_left.mpr
    intro id free sent
    have marked := ((recycled.newly id).mpr (List.mem_toFinset.mp sent)).2
    rw [(Finset.mem_filter.mp free).2] at marked
    exact absurd marked (by simp)
  rw [split, Finset.card_union_of_disjoint apart,
    List.toFinset_card_of_nodup recycled.nodup]

end Reentry.Recycled

end Mindroid
