import Mathlib.Data.List.Basic
import Mathlib.Logic.Function.Basic

/-!
# Messages and the global message pool

A `Message` object is a node of two intrusive lists: the doubly linked list of a
message queue and the singly linked list of the global message pool, which share
the field `nextMessage`.  Objects are named by their address; a store holds every
allocated message, the pool and the state of the result promises.

Counters and time stamps that the code only compares are natural numbers.
-/

set_option autoImplicit false

namespace Mindroid

/-- Address of a `Message` object. -/
abbrev MessageId := Nat

/-- Address of a `Handler`, `Runnable`, `Bundle`, `Thenable` or any other object. -/
abbrev ObjectId := Nat

/-- `Message::FLAG_IN_USE`. -/
def flagInUse : BitVec 32 := 1 <<< 0

structure Message where
  what : Int32 := 0
  arg1 : Int32 := 0
  arg2 : Int32 := 0
  obj : Option ObjectId := none
  flags : BitVec 32 := 0
  when : Nat := 0
  data : Option ObjectId := none
  target : Option ObjectId := none
  callback : Option ObjectId := none
  prevMessage : Option MessageId := none
  nextMessage : Option MessageId := none
  result : Option ObjectId := none
  deriving DecidableEq

namespace Message

def isInUse (message : Message) : Bool :=
  message.flags &&& flagInUse == flagInUse

def markInUse (message : Message) : Message :=
  { message with flags := message.flags ||| flagInUse }

/-- The assignments of `recycle()` that follow the cancellation of the result. -/
def cleared (message : Message) : Message :=
  { message with
    flags := flagInUse, what := 0, arg1 := 0, arg2 := 0, obj := none, when := 0,
    target := none, callback := none, data := none, result := none,
    prevMessage := none, nextMessage := none }

@[simp] theorem isInUse_markInUse (message : Message) : message.markInUse.isInUse = true := by
  have masked : (message.flags ||| flagInUse) &&& flagInUse = flagInUse := by
    ext i
    rw [BitVec.getElem_and, BitVec.getElem_or]
    cases message.flags[i] <;> simp
  simp [isInUse, markInUse, masked]

@[simp] theorem isInUse_cleared (message : Message) : message.cleared.isInUse = true := by
  simp [isInUse, cleared]

/-- The message without its two links. -/
def unlinked (message : Message) : Message :=
  { message with prevMessage := none, nextMessage := none }

end Message

/-- `MessagePool`. -/
structure MessagePool where
  maxSize : Nat := 42
  pool : Option MessageId := none
  size : Nat := 0
  deriving DecidableEq

/-- All `Message` objects, the global pool, and which result promises are done.
Addresses from `allocated` on have not been handed out by `new` yet. -/
structure Store where
  messages : MessageId → Message := fun _ => {}
  allocated : Nat := 0
  sMessagePool : MessagePool := {}
  isDone : ObjectId → Bool := fun _ => false

namespace Store

/-- Overwrite fields of one message. -/
def modify (store : Store) (id : MessageId) (change : Message → Message) : Store :=
  { store with
    messages := Function.update store.messages id (change (store.messages id)) }

/-- `id->nextMessage = link`. -/
def setNext (store : Store) (id : MessageId) (link : Option MessageId) : Store :=
  store.modify id fun m => { m with nextMessage := link }

/-- `id->prevMessage = link`. -/
def setPrev (store : Store) (id : MessageId) (link : Option MessageId) : Store :=
  store.modify id fun m => { m with prevMessage := link }

/-- `id->markInUse(); id->when = when`. -/
def stamp (store : Store) (id : MessageId) (when : Nat) : Store :=
  store.modify id fun m => { m.markInUse with when := when }

/-- `Message::obtain()`. -/
def obtain (store : Store) : Store × MessageId :=
  match store.sMessagePool.pool with
  | some message =>
      ({ store.modify message fun m => { m with nextMessage := none, flags := 0 } with
          sMessagePool :=
            { store.sMessagePool with
              pool := (store.messages message).nextMessage
              size := store.sMessagePool.size - 1 } }, message)
  | none =>
      ({ store.modify store.allocated fun _ => {} with
          allocated := store.allocated + 1 }, store.allocated)

/-- The last block of `Message::recycle()`: the message becomes the head of the
pool unless the pool is full. -/
def returnToPool (store : Store) (id : MessageId) : Store :=
  if store.sMessagePool.size < store.sMessagePool.maxSize then
    { store.setNext id store.sMessagePool.pool with
      sMessagePool :=
        { store.sMessagePool with
          pool := some id
          size := store.sMessagePool.size + 1 } }
  else
    store

/-- Everything `Message::recycle()` does after cancelling the result. -/
def reclaim (store : Store) (id : MessageId) : Store :=
  (store.modify id Message.cleared).returnToPool id

/-! ## The three views of a store

List operations rewrite links only, and user code rewrites contents only, so the
two link fields and the remaining fields are read separately. -/

def next (store : Store) (id : MessageId) : Option MessageId :=
  (store.messages id).nextMessage

def prev (store : Store) (id : MessageId) : Option MessageId :=
  (store.messages id).prevMessage

def contents (store : Store) (id : MessageId) : Message :=
  (store.messages id).unlinked

section Links

variable (store : Store) (id : MessageId) (link : Option MessageId)

@[simp] theorem next_setNext : (store.setNext id link).next = Function.update store.next id link := by
  funext other
  by_cases same : other = id
  · subst same
    simp [next, setNext, modify]
  · simp [next, setNext, modify, same]

@[simp] theorem prev_setNext : (store.setNext id link).prev = store.prev := by
  funext other
  by_cases same : other = id
  · subst same
    simp [prev, setNext, modify]
  · simp [prev, setNext, modify, same]

@[simp] theorem contents_setNext : (store.setNext id link).contents = store.contents := by
  funext other
  by_cases same : other = id
  · subst same
    simp [contents, setNext, modify, Message.unlinked]
  · simp [contents, setNext, modify, same]

@[simp] theorem next_setPrev : (store.setPrev id link).next = store.next := by
  funext other
  by_cases same : other = id
  · subst same
    simp [next, setPrev, modify]
  · simp [next, setPrev, modify, same]

@[simp] theorem prev_setPrev : (store.setPrev id link).prev = Function.update store.prev id link := by
  funext other
  by_cases same : other = id
  · subst same
    simp [prev, setPrev, modify]
  · simp [prev, setPrev, modify, same]

@[simp] theorem contents_setPrev : (store.setPrev id link).contents = store.contents := by
  funext other
  by_cases same : other = id
  · subst same
    simp [contents, setPrev, modify, Message.unlinked]
  · simp [contents, setPrev, modify, same]

@[simp] theorem allocated_setNext : (store.setNext id link).allocated = store.allocated := rfl

@[simp] theorem allocated_setPrev : (store.setPrev id link).allocated = store.allocated := rfl

@[simp] theorem isDone_setNext : (store.setNext id link).isDone = store.isDone := rfl

@[simp] theorem isDone_setPrev : (store.setPrev id link).isDone = store.isDone := rfl

@[simp] theorem pool_setNext : (store.setNext id link).sMessagePool = store.sMessagePool := rfl

@[simp] theorem pool_setPrev : (store.setPrev id link).sMessagePool = store.sMessagePool := rfl

end Links

section Stamp

variable (store : Store) (id : MessageId) (when : Nat)

@[simp] theorem next_stamp : (store.stamp id when).next = store.next := by
  funext other
  by_cases same : other = id
  · subst same
    simp [next, stamp, modify, Message.markInUse]
  · simp [next, stamp, modify, same]

@[simp] theorem prev_stamp : (store.stamp id when).prev = store.prev := by
  funext other
  by_cases same : other = id
  · subst same
    simp [prev, stamp, modify, Message.markInUse]
  · simp [prev, stamp, modify, same]

@[simp] theorem contents_stamp :
    (store.stamp id when).contents =
      Function.update store.contents id
        { (store.contents id).markInUse with when := when } := by
  funext other
  by_cases same : other = id
  · subst same
    simp [contents, stamp, modify, Message.markInUse, Message.unlinked]
  · simp [contents, stamp, modify, same]

@[simp] theorem allocated_stamp : (store.stamp id when).allocated = store.allocated := rfl

@[simp] theorem isDone_stamp : (store.stamp id when).isDone = store.isDone := rfl

@[simp] theorem pool_stamp : (store.stamp id when).sMessagePool = store.sMessagePool := rfl

end Stamp

section Reclaim

variable (store : Store) (id : MessageId)

@[simp] theorem contents_reclaim :
    (store.reclaim id).contents =
      Function.update store.contents id { flags := flagInUse } := by
  have cleared : (store.modify id Message.cleared).contents =
      Function.update store.contents id { flags := flagInUse } := by
    funext other
    by_cases same : other = id
    · subst same
      simp [contents, modify, Message.cleared, Message.unlinked]
    · simp [contents, modify, same]
  unfold reclaim returnToPool
  split
  · exact (contents_setNext _ _ _).trans cleared
  · exact cleared

@[simp] theorem prev_reclaim :
    (store.reclaim id).prev = Function.update store.prev id none := by
  have cleared : (store.modify id Message.cleared).prev =
      Function.update store.prev id none := by
    funext other
    by_cases same : other = id
    · subst same
      simp [prev, modify, Message.cleared]
    · simp [prev, modify, same]
  unfold reclaim returnToPool
  split
  · exact (prev_setNext _ _ _).trans cleared
  · exact cleared

theorem next_reclaim_of_ne {other : MessageId} (distinct : other ≠ id) :
    (store.reclaim id).next other = store.next other := by
  have cleared : (store.modify id Message.cleared).next other = store.next other := by
    simp [next, modify, distinct]
  unfold reclaim returnToPool
  split
  · refine (congrFun (next_setNext _ id _) other).trans ?_
    rw [Function.update_of_ne distinct, cleared]
  · exact cleared

@[simp] theorem isDone_reclaim : (store.reclaim id).isDone = store.isDone := by
  unfold reclaim returnToPool
  split <;> rfl

@[simp] theorem allocated_reclaim : (store.reclaim id).allocated = store.allocated := by
  unfold reclaim returnToPool
  split <;> rfl

end Reclaim

end Store

end Mindroid
