import Mathlib.Algebra.BigOperators.Fin
import Mindroid.Util.Concurrent.BlockingQueueRuns

/-!
# Thread pool executor

Workers take runnables from a queue, into which any number of other threads put them.  To shut the
executor down, one thread interrupts each worker and puts a null for it, and then joins them all.
-/

set_option autoImplicit false

namespace Mindroid

open Foundation LinkedBlockingQueue

/-- `WorkerThread::run` is at the condition of its loop, in `mQueue->take()`, in
`runnable->run()`, or at its end. -/
inductive WorkerPhase (ρ : Type) where
  | checks
  | takes
  | runs (runnable : ρ)
  | ended

/-- `shutdown` is at one of the two statements of its first loop, or in its second one. -/
inductive ShutdownPhase where
  | uncalled
  | interrupts (i : Nat)
  | puts (i : Nat)
  | joins

/-- The executor with its threads, which have `mInterrupted` each. -/
structure ThreadPoolExecutor (mSize : Nat) (ρ : Type) where
  mQueue : LinkedBlockingQueue (Option ρ)
  mWorkerThreads : Fin mSize → WorkerPhase ρ
  mInterrupted : Fin mSize → Bool
  shutdown : ShutdownPhase

namespace ThreadPoolExecutor

variable {mSize : Nat} {ρ : Type}

def start : ThreadPoolExecutor mSize ρ where
  mQueue := empty
  mWorkerThreads _ := .checks
  mInterrupted _ := false
  shutdown := .uncalled

variable (st : ThreadPoolExecutor mSize ρ)

def setWorker (i : Fin mSize) (phase : WorkerPhase ρ) : ThreadPoolExecutor mSize ρ :=
  { st with mWorkerThreads := Function.update st.mWorkerThreads i phase }

/-- What a worker does with an item. -/
def took : Option ρ → WorkerPhase ρ
  | some runnable => .runs runnable
  | none => .ended

/-- The steps of all threads, where `mayCancel` says what is cancelled.  A worker that gets no item
waits for one. -/
inductive Step [BEq ρ] (mayCancel : Option ρ → Prop) : ThreadPoolExecutor mSize ρ → Prop where
  | execute {queue : LinkedBlockingQueue (Option ρ)} (runnable : Option ρ)
      (puts : st.mQueue.run (.put runnable) = .ok (.put true, queue)) :
      Step mayCancel { st with mQueue := queue }
  | cancel {queue : LinkedBlockingQueue (Option ρ)} {runnable : Option ρ} {found : Bool}
      (called : mayCancel runnable)
      (removes : st.mQueue.run (.remove runnable) = .ok (.removed found, queue)) :
      Step mayCancel { st with mQueue := queue }
  | check {i : Fin mSize} (checks : st.mWorkerThreads i = .checks) :
      Step mayCancel (st.setWorker i (if st.mInterrupted i then .ended else .takes))
  | take {i : Fin mSize} {item : Option ρ} {queue : LinkedBlockingQueue (Option ρ)}
      (takes : st.mWorkerThreads i = .takes)
      (gets : st.mQueue.run .take = .ok (.taken item, queue)) :
      Step mayCancel { st.setWorker i (took item) with mQueue := queue }
  | finish {i : Fin mSize} {runnable : ρ} (runs : st.mWorkerThreads i = .runs runnable) :
      Step mayCancel (st.setWorker i .checks)
  | shutdown (uncalled : st.shutdown = .uncalled) :
      Step mayCancel { st with shutdown := .interrupts 0 }
  | interrupt {i : Fin mSize} (loops : st.shutdown = .interrupts i) :
      Step mayCancel { st with
        mInterrupted := Function.update st.mInterrupted i true
        shutdown := .puts i }
  | put {i : Nat} {queue : LinkedBlockingQueue (Option ρ)} (loops : st.shutdown = .puts i)
      (puts : st.mQueue.run (.put none) = .ok (.put true, queue)) :
      Step mayCancel { st with mQueue := queue, shutdown := .interrupts (i + 1) }
  | join (loops : st.shutdown = .interrupts mSize) : Step mayCancel { st with shutdown := .joins }

/-! ## What a shutdown relies on -/

/-- How many workers have been interrupted, and for how many there has been a null. -/
def progress (mSize : Nat) : ShutdownPhase → Nat × Nat
  | .uncalled => (0, 0)
  | .interrupts i => (i, i)
  | .puts i => (i + 1, i)
  | .joins => (mSize, mSize)

/-- How many steps an interrupted worker makes. -/
def rank : WorkerPhase ρ → Nat
  | .checks => 1
  | .takes => 3
  | .runs _ => 2
  | .ended => 0

def total (measure : WorkerPhase ρ → Nat) : Nat :=
  ∑ i, measure (st.mWorkerThreads i)

def alive (phase : WorkerPhase ρ) : Nat :=
  min (rank phase) 1

def nulls (items : List (Option ρ)) : Nat :=
  items.countP Option.isNone

def Has (queue : LinkedBlockingQueue (Option ρ)) (items : List (Option ρ)) : Prop :=
  ∃ entries, Holds queue.heap.content queue.mHeadNode entries ∧ entries.map Prod.snd = items

/-- There is a null in the queue for each worker that should end and has not. -/
structure Inv (items : List (Option ρ)) : Prop where
  has : Has st.mQueue items
  pays : (progress mSize st.shutdown).2 + st.total alive ≤ nulls items + mSize
  interrupted : ∀ i : Fin mSize, i.val < (progress mSize st.shutdown).1 → st.mInterrupted i = true

/-- While `shutdown` joins the workers, each one that has not ended can go on, and has less to do
with each step. -/
structure ShutsDown [BEq ρ] (mayCancel : Option ρ → Prop) : Prop where
  proceeds : ∀ i, st.mWorkerThreads i ≠ .ended →
    ∃ st', st.Step mayCancel st' ∧ st'.total rank < st.total rank
  descends : ∀ st', st.Step mayCancel st' →
    st'.mWorkerThreads = st.mWorkerThreads ∨ st'.total rank < st.total rank

variable {st} {items items' : List (Option ρ)} {queue : LinkedBlockingQueue (Option ρ)}
  {i : Fin mSize} {phase : WorkerPhase ρ}

theorem total_setWorker (measure : WorkerPhase ρ → Nat) :
    (st.setWorker i phase).total measure + measure (st.mWorkerThreads i) =
      st.total measure + measure phase := by
  have changed : (fun j => measure ((st.setWorker i phase).mWorkerThreads j)) =
      Function.update (fun j => measure (st.mWorkerThreads j)) i (measure phase) :=
    Function.comp_update measure _ _ _
  rw [total, total, changed, Finset.sum_update_of_mem (Finset.mem_univ i),
    ← Finset.erase_eq, ← Finset.add_sum_erase _ _ (Finset.mem_univ i)]
  omega

/-- A worker that has not ended goes on. -/
theorem Inv.setWorker (inv : st.Inv items) (has : Has queue items')
    (pays : alive phase + nulls items ≤ nulls items' + alive (st.mWorkerThreads i)) :
    Inv { st.setWorker i phase with mQueue := queue } items' where
  has := has
  pays := by
    have changed : (st.setWorker i phase).total alive + _ = _ := total_setWorker alive
    have before := inv.pays
    change (progress mSize st.shutdown).2 + (st.setWorker i phase).total _ ≤ _
    omega
  interrupted := inv.interrupted

variable [BEq ρ] {mayCancel : Option ρ → Prop} {st' : ThreadPoolExecutor mSize ρ}

theorem Has.run (has : Has queue items) (call : LinkedBlockingQueue.Call (Option ρ)) : ∃ queue',
    queue.run call = .ok ((fifo items call).1, queue') ∧ Has queue' (fifo items call).2 := by
  rcases has with ⟨entries, holds, rfl⟩
  rcases run_fifo holds call with ⟨queue', entries', runs, holds'⟩
  exact ⟨queue', runs, entries', holds'⟩

theorem nulls_remove (runnable : ρ) :
    nulls (items.filter fun other => !(other == some runnable)) = nulls items := by
  rw [nulls, nulls, List.countP_filter]
  congr 1
  funext other
  cases other <;> simp

theorem Inv.step (inv : st.Inv items) (keeps : ¬mayCancel none) (step : st.Step mayCancel st') :
    ∃ items', st'.Inv items' := by
  have pays := inv.pays
  have interrupted := inv.interrupted
  have put : ∀ item, nulls items + nulls [item] = nulls (items ++ [item]) :=
    fun item => List.countP_append.symm
  cases step with
  | execute runnable puts =>
      rcases inv.has.run (.put runnable) with ⟨_, ran, has⟩
      cases puts.symm.trans ran
      refine ⟨_, has, le_trans pays ?_, interrupted⟩
      rw [fifo, ← put]
      omega
  | @cancel _ runnable _ called removes =>
      cases runnable with
      | none => exact absurd called keeps
      | some runnable =>
          rcases inv.has.run (.remove (some runnable)) with ⟨_, ran, has⟩
          cases removes.symm.trans ran
          refine ⟨_, has, ?_, interrupted⟩
          exact le_of_le_of_eq pays (congrArg (· + mSize) (nulls_remove runnable).symm)
  | check checks =>
      refine ⟨items, inv.setWorker inv.has ?_⟩
      rw [checks]
      split <;> simp [alive, rank]
      omega
  | @take i item queue takes gets =>
      rcases inv.has.run .take with ⟨_, ran, has⟩
      cases items with
      | nil => cases gets.symm.trans ran
      | cons first items =>
          cases gets.symm.trans ran
          refine ⟨items, inv.setWorker has ?_⟩
          rw [takes]
          cases item <;> simp [took, alive, rank, nulls]
          omega
  | finish runs =>
      refine ⟨items, inv.setWorker inv.has ?_⟩
      rw [runs]
      simp [alive, rank, Nat.add_comm]
  | shutdown uncalled =>
      rw [uncalled] at pays
      exact ⟨items, inv.has, pays, fun j less => absurd less j.val.not_lt_zero⟩
  | @interrupt i loops =>
      rw [loops] at pays interrupted
      refine ⟨items, inv.has, pays, fun j less => ?_⟩
      by_cases same : j = i
      · rw [same]
        exact Function.update_self _ _ _
      · refine (Function.update_of_ne same _ _).trans (interrupted j ?_)
        exact Nat.lt_of_le_of_ne (Nat.le_of_lt_succ less) (Fin.val_ne_of_ne same)
  | put loops puts =>
      rw [loops] at pays interrupted
      rcases inv.has.run (.put none) with ⟨_, ran, has⟩
      cases puts.symm.trans ran
      refine ⟨_, has, ?_, interrupted⟩
      have more : nulls [(none : Option ρ)] = 1 := rfl
      rw [fifo, ← put, more]
      change _ + 1 + st.total alive ≤ _
      rw [progress] at pays
      omega
  | join loops =>
      rw [loops] at pays interrupted
      exact ⟨items, inv.has, pays, interrupted⟩

theorem Inv.shutsDown (inv : st.Inv items) (joins : st.shutdown = .joins) :
    st.ShutsDown mayCancel := by
  have less : ∀ {i phase}, rank phase < rank (st.mWorkerThreads i) →
      (st.setWorker i phase).total rank < st.total rank := by
    intro i phase less
    have changed : (st.setWorker i phase).total rank + _ = _ := total_setWorker rank
    omega
  have interrupted : ∀ i, st.mInterrupted i = true :=
    fun i => inv.interrupted i (joins ▸ i.isLt)
  have checked : ∀ {i}, st.mWorkerThreads i = .checks →
      rank (if st.mInterrupted i then .ended else .takes : WorkerPhase ρ) <
        rank (st.mWorkerThreads i) := by
    intro i checks
    rw [checks, interrupted i]
    exact Nat.one_pos
  have took : ∀ {i}, st.mWorkerThreads i = .takes → ∀ item : Option ρ,
      rank (took item) < rank (st.mWorkerThreads i) := by
    intro i takes item
    rw [takes]
    cases item <;> simp [rank, ThreadPoolExecutor.took]
  constructor
  case proceeds =>
    intro i unended
    cases isPhase : st.mWorkerThreads i with
    | checks => exact ⟨_, .check isPhase, less (checked isPhase)⟩
    | takes =>
        have pays := inv.pays
        have changed : (st.setWorker i .ended).total alive + _ = _ := total_setWorker alive
        rw [joins, progress] at pays
        rw [isPhase] at changed
        cases items with
        | nil => simp [nulls, alive, rank] at pays changed; omega
        | cons item items =>
            rcases inv.has.run .take with ⟨queue, runs, _⟩
            exact ⟨_, .take isPhase runs, less (took isPhase item)⟩
    | runs => exact ⟨_, .finish isPhase, less (isPhase ▸ Nat.one_lt_two)⟩
    | ended => exact absurd isPhase unended
  case descends =>
    intro st' step
    cases step with
    | check checks => exact .inr (less (checked checks))
    | take takes => exact .inr (less (took takes _))
    | finish runs => exact .inr (less (runs ▸ Nat.one_lt_two))
    | _ => exact .inl rfl

end ThreadPoolExecutor

end Mindroid
