import Mindroid.Foundation.Refinement
import Mindroid.Util.Concurrent.QueueItems

/-!
# Threads that share a blocking queue

Any number of threads call the methods of one queue.  What a method does while it holds the lock is
one step, so the steps of the threads come in any order.
-/

set_option autoImplicit false

namespace Mindroid.LinkedBlockingQueue

open Foundation

variable {T θ : Type}

inductive Call (T : Type) where
  | put (item : T)
  | take
  | remove (item : T)

/-- How a method releases the lock. -/
inductive Outcome (T : Type) where
  | put (result : Bool)
  | taken (item : T)
  | awaits
  | removed (foundItem : Bool)

section Methods

variable [BEq T]

/-- What a method does while it holds the lock. -/
def run (queue : LinkedBlockingQueue T) : Call T → Except Crash (Outcome T × LinkedBlockingQueue T)
  | .put item => do
      let queue ← queue.put item
      return (.put true, queue)
  | .take => do
      let (item, queue) ← queue.take
      match item with
      | some item => return (.taken item, queue)
      | none => return (.awaits, queue)
  | .remove item => do
      let (foundItem, queue) ← queue.remove item
      return (.removed foundItem, queue)

/-- What the methods are for: a sequence of items, of which the first one is taken. -/
def fifo (items : List T) : Call T → Outcome T × List T
  | .put item => (.put true, items ++ [item])
  | .take =>
      match items with
      | [] => (.awaits, [])
      | item :: items => (.taken item, items)
  | .remove item =>
      (.removed (items.any (· == item)), items.filter fun other => !(other == item))

/-- A queue does what a sequence of its items does. -/
theorem run_fifo {heap : NodeHeap (QueueNode T)} {start : Option Nat} {entries : List (Nat × T)}
    (holds : Holds heap.content start entries) (call : Call T) :
    ∃ queue' entries', run ⟨heap, start⟩ call =
        .ok ((fifo (entries.map Prod.snd) call).1, queue') ∧
      Holds queue'.heap.content queue'.mHeadNode entries' ∧
      entries'.map Prod.snd = (fifo (entries.map Prod.snd) call).2 := by
  cases call with
  | put item =>
      obtain ⟨queue', node, puts, holds'⟩ := put_appends holds item
      refine ⟨queue', entries ++ [(node, item)], ?_, holds', List.map_append⟩
      simp only [run, puts, bind, Except.bind]
      rfl
  | take =>
      cases entries with
      | nil =>
          refine ⟨⟨heap, start⟩, [], ?_, holds, rfl⟩
          simp only [run, take_empty holds, bind, Except.bind]
          rfl
      | cons entry entries =>
          obtain ⟨queue', takes, holds'⟩ := take_first holds
          refine ⟨queue', entries, ?_, holds', rfl⟩
          simp only [run, takes, bind, Except.bind]
          rfl
  | remove item =>
      obtain ⟨queue', removes, holds'⟩ := remove_leaves_others holds item
      refine ⟨queue', _, ?_, holds', ?_⟩
      · simp only [run, removes, bind, Except.bind, fifo, List.any_map]
        rfl
      · rw [fifo, List.filter_map]
        rfl

end Methods

/-! ## Threads -/

inductive Phase (T : Type) where
  | idle
  | calling (call : Call T)
  | awaiting

/-- While a thread waits, each item is one that another thread is about to take. -/
def Served (phase : θ → Phase T) (items : List T) : Prop :=
  ∀ thread, phase thread = .awaiting →
    ∃ takers : List θ, takers.Nodup ∧ (∀ taker ∈ takers, phase taker = .calling .take) ∧
      items.length ≤ takers.length

def Outcome.phase : Outcome T → Phase T
  | .awaits => .awaiting
  | _ => .idle

/-- The queue, what each thread does, and who got the lock for which call so far. -/
structure Threads (θ T : Type) where
  queue : LinkedBlockingQueue T
  phase : θ → Phase T
  log : List (θ × Call T × Outcome T)

namespace Threads

def start : Threads θ T where
  queue := empty
  phase := fun _ => .idle
  log := []

variable [DecidableEq θ]

def enter (st : Threads θ T) (thread : θ) (call : Call T) : Threads θ T :=
  { st with phase := Function.update st.phase thread (.calling call) }

/-- A method released the lock. -/
def release (st : Threads θ T) (thread : θ) (call : Call T) (outcome : Outcome T)
    (queue : LinkedBlockingQueue T) : Threads θ T where
  queue := queue
  phase := Function.update st.phase thread outcome.phase
  log := st.log ++ [(thread, call, outcome)]

/-- `await` returned, and the loop of `take` begins again. -/
def wake (st : Threads θ T) (thread : θ) : Threads θ T :=
  { st with phase := Function.update st.phase thread (.calling .take) }

/-- `mCondition->signal()`. -/
inductive Signal (st : Threads θ T) : Threads θ T → Prop where
  | one {thread : θ} (awaits : st.phase thread = .awaiting) : Signal st (st.wake thread)
  | none (nobody : ∀ thread, st.phase thread ≠ .awaiting) : Signal st st

variable [BEq T]

inductive Step (st : Threads θ T) : Threads θ T → Prop where
  | enter {thread : θ} (call : Call T) (idle : st.phase thread = .idle) :
      Step st (st.enter thread call)
  | put {thread : θ} {item : T} {outcome : Outcome T} {queue : LinkedBlockingQueue T}
      {st' : Threads θ T} (calls : st.phase thread = .calling (.put item))
      (runs : st.queue.run (.put item) = .ok (outcome, queue))
      (signals : (st.release thread (.put item) outcome queue).Signal st') : Step st st'
  | take {thread : θ} {outcome : Outcome T} {queue : LinkedBlockingQueue T}
      (calls : st.phase thread = .calling .take)
      (runs : st.queue.run .take = .ok (outcome, queue)) :
      Step st (st.release thread .take outcome queue)
  | remove {thread : θ} {item : T} {outcome : Outcome T} {queue : LinkedBlockingQueue T}
      (calls : st.phase thread = .calling (.remove item))
      (runs : st.queue.run (.remove item) = .ok (outcome, queue)) :
      Step st (st.release thread (.remove item) outcome queue)
  /-- A wait that ends without a signal. -/
  | wake {thread : θ} (awaits : st.phase thread = .awaiting) : Step st (st.wake thread)

/-! ## What holds in every run -/

/-- The outcomes that the calls so far have on a sequence, and the items that are left. -/
def expected (st : Threads θ T) : List (Outcome T) × List T :=
  answer fifo [] (st.log.map fun done => done.2.1)

/-- The queue behaves as a sequence of items, from which nobody waits for an item in vain, and of
whose nodes each is freed once. -/
structure Behaves (st : Threads θ T) : Prop where
  outcomes : st.log.map (fun done => done.2.2) = st.expected.1
  runs : ∀ call, ∃ queue, st.queue.run call = .ok ((fifo st.expected.2 call).1, queue)
  served : Served st.phase st.expected.2
  freed : ∃ entries, Holds st.queue.heap.content st.queue.mHeadNode entries ∧
    entries.map Prod.snd = st.expected.2 ∧
      ∀ node < st.queue.heap.allocated,
        st.queue.heap.freed.count node + (entries.map Prod.fst).count node = 1
  destroyed : ∃ heap, st.queue.destroy = .ok heap ∧ heap.allocated = st.queue.heap.allocated ∧
    ∀ node < heap.allocated, heap.freed.count node = 1

/-! ### Items -/

/-- The outcomes are those of a sequence, and its items are in the queue. -/
structure Exact (st : Threads θ T) : Prop where
  outcomes : st.log.map (fun done => done.2.2) = st.expected.1
  entries : ∃ entries, Holds st.queue.heap.content st.queue.mHeadNode entries ∧
    entries.map Prod.snd = st.expected.2

section Exact

variable {st : Threads θ T} {thread : θ} {call : Call T} {outcome : Outcome T}
  {queue : LinkedBlockingQueue T}

theorem expected_release (st : Threads θ T) (thread : θ) (call : Call T) (outcome : Outcome T)
    (queue : LinkedBlockingQueue T) :
    (st.release thread call outcome queue).expected =
      (st.expected.1 ++ [(fifo st.expected.2 call).1], (fifo st.expected.2 call).2) := by
  rw [expected, release, List.map_append, List.map_singleton, answer_concat]
  rfl

omit [DecidableEq θ] in
theorem Exact.run (exact : st.Exact) (call : Call T) :
    ∃ queue entries, st.queue.run call = .ok ((fifo st.expected.2 call).1, queue) ∧
      Holds queue.heap.content queue.mHeadNode entries ∧
      entries.map Prod.snd = (fifo st.expected.2 call).2 := by
  obtain ⟨entries, holds, items⟩ := exact.entries
  rw [← items]
  exact run_fifo holds call

omit [DecidableEq θ] in
theorem Exact.outcome_eq (exact : st.Exact) (runs : st.queue.run call = .ok (outcome, queue)) :
    outcome = (fifo st.expected.2 call).1 := by
  obtain ⟨queue', entries, runs', -, -⟩ := exact.run call
  rw [runs'] at runs
  exact (Prod.mk.inj (Except.ok.inj runs)).1.symm

theorem Exact.release (exact : st.Exact) (runs : st.queue.run call = .ok (outcome, queue)) :
    (st.release thread call outcome queue).Exact where
  outcomes := by
    rw [expected_release, ← exact.outcomes, ← exact.outcome_eq runs]
    exact List.map_append
  entries := by
    obtain ⟨queue', entries, runs', holds, items⟩ := exact.run call
    rw [runs'] at runs
    cases runs
    rw [expected_release]
    exact ⟨entries, holds, items⟩

theorem Exact.signal {st' : Threads θ T} (exact : st.Exact) (signals : st.Signal st') :
    st'.Exact := by
  cases signals with
  | one => exact ⟨exact.outcomes, exact.entries⟩
  | none => exact exact

end Exact

end Threads

/-! ### Waiting -/

section Served

variable {phase : θ → Phase T} {thread : θ} {item : T} {items : List T}

theorem served_nil (phase : θ → Phase T) : Served phase [] :=
  fun _ _ => ⟨[], List.nodup_nil, nofun, Nat.le_refl _⟩

variable [DecidableEq θ]

theorem Served.change {items' : List T} {after : Phase T} (served : Served phase items)
    (stays : after ≠ .awaiting) (keeps : phase thread = .calling .take → after = .calling .take)
    (fewer : items'.length ≤ items.length) :
    Served (Function.update phase thread after) items' := by
  intro other awaits
  have apart : other ≠ thread := by
    rintro rfl
    rw [Function.update_self] at awaits
    exact stays awaits
  rw [Function.update_of_ne apart] at awaits
  obtain ⟨takers, distinct, calls, enough⟩ := served other awaits
  refine ⟨takers, distinct, fun taker member => ?_, Nat.le_trans fewer enough⟩
  by_cases same : taker = thread
  · rw [same, Function.update_self]
    exact keeps (same ▸ calls taker member)
  · rw [Function.update_of_ne same]
    exact calls taker member

/-- A thread that takes an item leaves the others to those that are about to take. -/
theorem Served.taken (served : Served phase (item :: items)) (thread : θ) :
    Served (Function.update phase thread .idle) items := by
  intro other awaits
  have apart : other ≠ thread := by
    rintro rfl
    rw [Function.update_self] at awaits
    cases awaits
  rw [Function.update_of_ne apart] at awaits
  obtain ⟨takers, distinct, calls, enough⟩ := served other awaits
  refine ⟨takers.erase thread, distinct.erase thread, fun taker member => ?_, ?_⟩
  · obtain ⟨isOther, isTaker⟩ := distinct.mem_erase_iff.mp member
    rw [Function.update_of_ne isOther]
    exact calls taker isTaker
  · rw [List.length_cons] at enough
    have erased := List.length_erase (a := thread) (l := takers)
    split at erased <;> omega

/-- A signal leaves a new item to the thread that it wakes. -/
theorem Served.signalled {other : θ} (served : Served phase items)
    (calls : phase thread = .calling (.put item))
    (awaits : Function.update phase thread .idle other = .awaiting) :
    Served (Function.update (Function.update phase thread .idle) other (.calling .take))
      (items ++ [item]) := by
  have apart : other ≠ thread := by
    rintro rfl
    rw [Function.update_self] at awaits
    cases awaits
  rw [Function.update_of_ne apart] at awaits
  obtain ⟨takers, distinct, areTakers, enough⟩ := served other awaits
  have fresh : other ∉ takers := fun member => by
    cases awaits.symm.trans (areTakers other member)
  intro waiting _
  refine ⟨other :: takers, List.nodup_cons.mpr ⟨fresh, distinct⟩, fun taker member => ?_, ?_⟩
  · rcases List.mem_cons.mp member with rfl | isTaker
    · exact Function.update_self _ _ _
    · have isOther : taker ≠ other := fun same => fresh (same ▸ isTaker)
      have notPutting : taker ≠ thread := by
        rintro rfl
        cases calls.symm.trans (areTakers taker isTaker)
      rw [Function.update_of_ne isOther, Function.update_of_ne notPutting]
      exact areTakers taker isTaker
  · rw [List.length_append, List.length_cons]
    exact Nat.succ_le_succ enough

end Served

namespace Threads

variable [DecidableEq θ] [BEq T] {st st' : Threads θ T}

/-! ### Every run -/

theorem Step.exact (step : st.Step st') (exact : st.Exact) : st'.Exact := by
  cases step with
  | enter => exact ⟨exact.outcomes, exact.entries⟩
  | put _ runs signals => exact (exact.release runs).signal signals
  | take _ runs => exact exact.release runs
  | remove _ runs => exact exact.release runs
  | wake => exact ⟨exact.outcomes, exact.entries⟩

theorem Step.served (step : st.Step st') (exact : st.Exact)
    (served : Served st.phase st.expected.2) : Served st'.phase st'.expected.2 := by
  cases step with
  | enter call idle =>
      refine served.change nofun (fun calls => ?_) (Nat.le_refl _)
      cases idle.symm.trans calls
  | @put thread item _ queue _ calls runs signals =>
      cases exact.outcome_eq runs
      cases signals with
      | one awaits =>
          have left := expected_release st thread (.put item) (.put true) queue
          change Served _ (st.release thread (.put item) (.put true) queue).expected.2
          rw [left]
          exact served.signalled calls awaits
      | none nobody => exact fun other awaits => absurd awaits (nobody other)
  | @take thread _ _ calls runs =>
      cases exact.outcome_eq runs
      rw [expected_release]
      change Served (Function.update st.phase thread (fifo st.expected.2 .take).1.phase) _
      cases left : st.expected.2 with
      | nil => exact served_nil _
      | cons item items =>
          rw [left] at served
          exact served.taken thread
  | remove calls runs =>
      cases exact.outcome_eq runs
      rw [expected_release]
      refine served.change nofun (fun takes => ?_) (List.length_filter_le _ _)
      cases calls.symm.trans takes
  | wake awaits =>
      exact served.change nofun (fun _ => rfl) (Nat.le_refl _)

omit [DecidableEq θ] in
theorem start_exact : (start : Threads θ T).Exact where
  outcomes := rfl
  entries := ⟨[], empty_holds, rfl⟩

omit [DecidableEq θ] in
theorem Exact.behaves (exact : st.Exact) (served : Served st.phase st.expected.2) :
    st.Behaves where
  outcomes := exact.outcomes
  runs := by
    intro call
    obtain ⟨queue, entries, runs, -⟩ := exact.run call
    exact ⟨queue, runs⟩
  served := served
  freed := by
    obtain ⟨entries, holds, items⟩ := exact.entries
    refine ⟨entries, holds, items, fun node created => ?_⟩
    rw [NodeHeap.count_freed _ _ created]
    split
    · next isAlive =>
        rw [List.count_eq_one_of_mem holds.spells.distinct (holds.owned node isAlive)]
    · next isDead =>
        rw [List.count_eq_zero.mpr fun member => isDead (holds.spells.isSome node member)]
  destroyed := by
    obtain ⟨entries, holds, -⟩ := exact.entries
    obtain ⟨heap, destroys, dead, allocated⟩ := destroy_deletes holds
    refine ⟨heap, destroys, allocated, fun node created => ?_⟩
    rw [NodeHeap.count_freed _ _ created, dead]
    rfl

/-- What every step keeps. -/
def Inv (st : Threads θ T) : Prop :=
  st.Exact ∧ Served st.phase st.expected.2

theorem inv_of_reachable (reachable : Reachable (· = start) Step st) : st.Inv := by
  apply reachable.invariant
  · rintro _ rfl
    exact ⟨start_exact, served_nil _⟩
  · intro before after _ inv step
    exact ⟨step.exact inv.1, step.served inv.1 inv.2⟩

/-- A blocking queue is a sequence of items, in whatever order the threads get the lock. -/
theorem behaves_as_sequence (reachable : Reachable (· = start) Step st) : st.Behaves := by
  have inv := inv_of_reachable reachable
  exact inv.1.behaves inv.2

/-- A thread that waits gets the item that another thread puts. -/
theorem behaves_as_sequence_awaited : ∃ st : Threads Nat Nat,
    st.log = [(1, .take, .awaits), (0, .put 7, .put true), (1, .take, .taken 7)] ∧
      st.Behaves := by
  obtain ⟨filled, emptied, puts, takes⟩ : ∃ filled emptied : LinkedBlockingQueue Nat,
      empty.run (.put 7) = .ok (.put true, filled) ∧
        filled.run .take = .ok (.taken 7, emptied) := ⟨_, _, rfl, rfl⟩
  let waiting := ((start : Threads Nat Nat).enter 1 .take).release 1 .take .awaits empty
  let putting := waiting.enter 0 (.put 7)
  let woken := (putting.release 0 (.put 7) (.put true) filled).wake 1
  have waits : Reachable (· = start) Step waiting :=
    .step (.step (.initial rfl) (.enter .take rfl)) (.take rfl rfl)
  have signals : (putting.release 0 (.put 7) (.put true) filled).Signal woken := .one rfl
  have wakes : Step putting woken := .put rfl puts signals
  have ends : Step woken (woken.release 1 .take (.taken 7) emptied) := .take rfl takes
  exact ⟨_, rfl, behaves_as_sequence (((waits.step (.enter (.put 7) rfl)).step wakes).step ends)⟩

end Threads

end Mindroid.LinkedBlockingQueue
