import Mindroid.Foundation.DoublyLinked
import Mindroid.Os.Message

/-!
# The messages of the global pool

The pool is the singly linked list from `sMessagePool.pool` through `nextMessage`.  Its messages
are cleared but marked as in use; `obtain` takes its head and `recycle` puts a message in front of
it unless it is full.
-/

set_option autoImplicit false

namespace Mindroid.Store

open Foundation

/-- The pool has exactly these messages, all of them cleared. -/
structure Pooled (store : Store) (ids : List MessageId) : Prop where
  path : LinkPath store.next store.sMessagePool.pool ids none
  nodup : ids.Nodup
  known : ∀ id ∈ ids, id < store.allocated
  cleared : ∀ id ∈ ids, store.contents id = { flags := flagInUse }
  unlinked : ∀ id ∈ ids, store.prev id = none
  size : store.sMessagePool.size = ids.length
  bounded : ids.length ≤ store.sMessagePool.maxSize

section Views

variable {store store' : Store} {id other : MessageId}

/-- A message consists of its links and its contents. -/
theorem message_eq (contents : store'.contents id = store.contents id)
    (next : store'.next id = store.next id) (prev : store'.prev id = store.prev id) :
    store'.messages id = store.messages id := by
  have rebuilt : ∀ message : Message,
      { message.unlinked with
        prevMessage := message.prevMessage, nextMessage := message.nextMessage } = message :=
    fun _ => rfl
  calc
    store'.messages id =
        { store'.contents id with
          prevMessage := store'.prev id, nextMessage := store'.next id } := (rebuilt _).symm
    _ = { store.contents id with
          prevMessage := store.prev id, nextMessage := store.next id } := by
        rw [contents, next, prev]
    _ = store.messages id := rebuilt _

theorem contents_congr (same : store'.messages id = store.messages id) :
    store'.contents id = store.contents id :=
  congrArg Message.unlinked same

theorem next_congr (same : store'.messages id = store.messages id) :
    store'.next id = store.next id :=
  congrArg Message.nextMessage same

theorem prev_congr (same : store'.messages id = store.messages id) :
    store'.prev id = store.prev id :=
  congrArg Message.prevMessage same

theorem target_congr (same : store'.contents id = store.contents id) :
    (store'.messages id).target = (store.messages id).target := by
  have target : (store'.contents id).target = (store.contents id).target := by rw [same]
  exact target

theorem messages_reclaim_of_ne (apart : other ≠ id) :
    (store.reclaim id).messages other = store.messages other := by
  apply message_eq
  · rw [contents_reclaim, Function.update_of_ne apart]
  · exact next_reclaim_of_ne store id apart
  · rw [prev_reclaim, Function.update_of_ne apart]

end Views

namespace Pooled

variable {store store' : Store} {ids : List MessageId} {id : MessageId}

theorem initial {messages : MessageId → Message} {allocated : Nat} {isDone : ObjectId → Bool} :
    Pooled { messages, allocated, isDone } [] where
  path := rfl
  nodup := List.nodup_nil
  known := fun _ member => absurd member List.not_mem_nil
  cleared := fun _ member => absurd member List.not_mem_nil
  unlinked := fun _ member => absurd member List.not_mem_nil
  size := rfl
  bounded := Nat.zero_le _

/-- The pool only reads its own messages. -/
theorem congr (pooled : Pooled store ids)
    (same : ∀ id ∈ ids, store'.messages id = store.messages id)
    (pool : store'.sMessagePool = store.sMessagePool)
    (allocated : store.allocated ≤ store'.allocated) : Pooled store' ids where
  path := by
    rw [pool]
    exact pooled.path.congr fun id member => next_congr (same id member)
  nodup := pooled.nodup
  known := fun id member => Nat.lt_of_lt_of_le (pooled.known id member) allocated
  cleared := fun id member =>
    (contents_congr (same id member)).trans (pooled.cleared id member)
  unlinked := fun id member => (prev_congr (same id member)).trans (pooled.unlinked id member)
  size := by
    rw [pool]
    exact pooled.size
  bounded := by
    rw [pool]
    exact pooled.bounded

/-- A message outside of the pool can be overwritten. -/
theorem modify (pooled : Pooled store ids) (absent : id ∉ ids) (change : Message → Message) :
    Pooled (store.modify id change) ids :=
  pooled.congr
    (fun _ member => Function.update_of_ne (ne_of_mem_of_not_mem member absent) _ _) rfl
    (Nat.le_refl _)

/-- What a message that is not in the pool becomes by recycling it: the new head of the pool, or,
when the pool is full, a message that nobody has. -/
theorem reclaim (pooled : Pooled store ids) (absent : id ∉ ids) (known : id < store.allocated) :
    ∃ ids', Pooled (store.reclaim id) ids' ∧ (ids' = id :: ids ∨ ids' = ids) := by
  have apart : ∀ other ∈ ids, other ≠ id := fun other member =>
    ne_of_mem_of_not_mem member absent
  have same : ∀ other ∈ ids, (store.reclaim id).messages other = store.messages other :=
    fun other member => messages_reclaim_of_ne (apart other member)
  have allocated : (store.reclaim id).allocated = store.allocated := allocated_reclaim store id
  by_cases room : store.sMessagePool.size < store.sMessagePool.maxSize
  · have returned : store.reclaim id =
        { (store.modify id Message.cleared).setNext id store.sMessagePool.pool with
          sMessagePool :=
            { store.sMessagePool with
              pool := some id
              size := store.sMessagePool.size + 1 } } := if_pos room
    have head : (store.reclaim id).sMessagePool.pool = some id := by rw [returned]
    have link : (store.reclaim id).next id = store.sMessagePool.pool := by
      rw [returned]
      exact (congrFun (next_setNext _ id _) id).trans (Function.update_self _ _ _)
    refine ⟨id :: ids, ?_, .inl rfl⟩
    constructor
    · rw [head]
      refine ⟨rfl, ?_⟩
      rw [link]
      exact pooled.path.congr fun other member => next_congr (same other member)
    · exact List.nodup_cons.mpr ⟨absent, pooled.nodup⟩
    · rw [allocated]
      exact List.forall_mem_cons.mpr ⟨known, pooled.known⟩
    · refine List.forall_mem_cons.mpr ⟨?_, fun other member => ?_⟩
      · rw [contents_reclaim, Function.update_self]
      · rw [contents_congr (same other member)]
        exact pooled.cleared other member
    · refine List.forall_mem_cons.mpr ⟨?_, fun other member => ?_⟩
      · rw [prev_reclaim, Function.update_self]
      · rw [prev_congr (same other member)]
        exact pooled.unlinked other member
    · rw [returned]
      exact congrArg Nat.succ pooled.size
    · rw [returned]
      exact pooled.size ▸ room
  · have kept : store.reclaim id = store.modify id Message.cleared := if_neg room
    refine ⟨ids, ?_, .inr rfl⟩
    rw [kept]
    exact pooled.modify absent Message.cleared

/-- A message that `obtain` returns is as good as new, and nobody else has it. -/
theorem obtain (pooled : Pooled store ids) :
    ∃ ids', Pooled store.obtain.1 ids' ∧ ids'.Sublist ids ∧ store.obtain.2 ∉ ids' ∧
      (store.obtain.2 ∈ ids ∨ store.obtain.2 = store.allocated) ∧
      store.obtain.1.messages store.obtain.2 = {} ∧
      (∀ other, other ≠ store.obtain.2 →
        store.obtain.1.messages other = store.messages other) ∧
      store.allocated ≤ store.obtain.1.allocated ∧
      store.obtain.2 < store.obtain.1.allocated ∧
      store.obtain.1.isDone = store.isDone := by
  cases pooledHead : store.sMessagePool.pool with
  | none =>
      have obtained : store.obtain =
          ({ store.modify store.allocated fun _ => {} with
              allocated := store.allocated + 1 }, store.allocated) := by
        rw [Store.obtain, pooledHead]
      rw [obtained]
      have fresh : store.allocated ∉ ids := fun member =>
        absurd (pooled.known _ member) (Nat.lt_irrefl _)
      refine ⟨ids, (pooled.modify fresh fun _ => {}).congr (fun _ _ => rfl) rfl (Nat.le_succ _),
        List.Sublist.refl ids, fresh, .inr rfl, Function.update_self _ _ _,
        fun other apart => Function.update_of_ne apart _ _, Nat.le_succ _, Nat.lt_succ_self _, rfl⟩
  | some head =>
      have path := pooled.path
      rw [pooledHead] at path
      cases ids with
      | nil => exact absurd path (Option.some_ne_none head)
      | cons first rest =>
          have same : head = first := Option.some.inj path.1
          have obtained : store.obtain =
              ({ store.modify head fun m => { m with nextMessage := none, flags := 0 } with
                  sMessagePool :=
                    { store.sMessagePool with
                      pool := (store.messages head).nextMessage
                      size := store.sMessagePool.size - 1 } }, head) := by
            rw [Store.obtain, pooledHead]
          rw [obtained]
          have nodup := List.nodup_cons.mp pooled.nodup
          have absent : head ∉ rest := same ▸ nodup.1
          have kept : ∀ other, other ≠ head →
              (store.modify head fun m => { m with nextMessage := none, flags := 0 }).messages
                other = store.messages other :=
            fun other apart => Function.update_of_ne apart _ _
          have others : ∀ other ∈ rest,
              (store.modify head fun m => { m with nextMessage := none, flags := 0 }).messages
                other = store.messages other :=
            fun other member => kept other (ne_of_mem_of_not_mem member absent)
          have inRest : ∀ other ∈ rest, other ∈ first :: rest := fun _ member =>
            List.mem_cons_of_mem _ member
          refine ⟨rest, ⟨?_, nodup.2, ?_, ?_, ?_, ?_, ?_⟩, List.sublist_cons_self first rest,
            absent, .inl (same ▸ List.mem_cons_self), ?_, kept, Nat.le_refl _, ?_, rfl⟩
          · have behind : LinkPath store.next (store.messages head).nextMessage rest none := by
              rw [same]
              exact path.2
            exact behind.congr fun other member => next_congr (others other member)
          · exact fun other member => pooled.known other (inRest other member)
          · intro other member
            exact (contents_congr (others other member)).trans
              (pooled.cleared other (inRest other member))
          · intro other member
            exact (prev_congr (others other member)).trans
              (pooled.unlinked other (inRest other member))
          · exact congrArg (· - 1) pooled.size
          · exact Nat.le_of_succ_le pooled.bounded
          · have cleared := pooled.cleared first List.mem_cons_self
            have unlinked := pooled.unlinked first List.mem_cons_self
            rw [← same] at cleared unlinked
            have emptied : ∀ message : Message, message.unlinked = { flags := flagInUse } →
                message.prevMessage = none →
                  { message with nextMessage := none, flags := 0 } = ({} : Message) := by
              intro message contents prev
              cases message
              cases prev
              cases contents
              rfl
            exact (Function.update_self _ _ _).trans (emptied _ cleared unlinked)
          · exact same ▸ pooled.known first List.mem_cons_self

end Pooled

end Mindroid.Store
