import Mindroid.Foundation.Loop
import Mindroid.Runtime.System.TransactionTable
import Mindroid.Util.LinkedList

/-!
# The shutdown of a client

`Client::shutdown` completes the promises while it iterates over the table of the
transactions.  A `HashMap` is a list of nodes in the order of its iteration, and its
iterators are those of a list: the node of an iterator must not be erased before the
iterator has left it.
-/

set_option autoImplicit false

namespace Mindroid

open Foundation

namespace Plugin

/-- What goes wrong in a shutdown. -/
inductive ShutdownFault where
  /-- `mPlugin->onShutdown(this)` without a plugin. -/
  | nullPointer
  | iterator (fault : Fault)
  deriving DecidableEq

/-- What a shutdown does besides its changes of the client. -/
inductive ShutdownEffect where
  | onShutdown
  | completeWith (transaction : Nat)
  | onDisconnected
  /-- `sExecutor->post`, which closes the connection later. -/
  | post
  deriving DecidableEq

/-- The fields of a `Client` that a shutdown uses.  The entries of `mTransactions` are ids
with the promises of transactions. -/
structure Client where
  mPlugin : Bool
  mTransactions : LinkedList (Int32 × Nat)
  transactions : Nat → Transaction
  effects : List ShutdownEffect

namespace Client

/-- The continuation that `Client::transact` registers. -/
def continuation (client : Client) (index : Nat) : Client :=
  let transactionId := (client.transactions index).transactionId
  { client with
    mTransactions := client.mTransactions.remove fun entry => entry.1 == transactionId
    transactions := Function.update client.transactions index
      { client.transactions index with continued := true } }

/-- `promise->completeWith(new RemoteException())`, which runs the continuation if it waits
for the promise. -/
def completeWith (client : Client) (index : Nat) : Client :=
  let transaction := client.transactions index
  if transaction.result.isSome then
    client
  else
    let completed : Client :=
      { client with
        transactions := Function.update client.transactions index
          { transaction with
            result := some (.error .remoteException)
            hasTimeout := false }
        effects := client.effects ++ [.completeWith index] }
    if transaction.hasContinuation then completed.continuation index else completed

/-- One iteration of the loop in `shutdown`. -/
def completeNext (st : Client × LinkedList.Iterator) :
    Except ShutdownFault (Client ⊕ (Client × LinkedList.Iterator)) := do
  let (client, itr) := st
  if ← (itr.hasNext client.mTransactions).mapError .iterator then
    let (entry, itr) ← (itr.next client.mTransactions).mapError .iterator
    pure (.inr (client.completeWith entry.2, itr))
  else
    pure (.inl client)

def effect (client : Client) (effect : ShutdownEffect) : Client :=
  { client with effects := client.effects ++ [effect] }

/-- The loop of `shutdown`, which visits every node at most once. -/
def completeAll (client : Client) : Except ShutdownFault Client :=
  loop completeNext (.iterator .outOfFuel) (client.mTransactions.nodes.length + 1)
    (client, client.mTransactions.iterator)

/-- `mPlugin->onShutdown(this)` and `mPlugin.clear()`. -/
def leavePlugin (client : Client) : Client :=
  { client.effect .onShutdown with mPlugin := false }

def shutdown (client : Client) : Except ShutdownFault Client :=
  if client.mPlugin then do
    let client ← client.leavePlugin.completeAll
    pure ((client.effect .onDisconnected).effect .post)
  else
    .error .nullPointer

/-! ## What a shutdown has to do -/

/-- The promise of an entry that is not done. -/
def Pending (client : Client) (index : Nat) : Prop :=
  index ∈ client.mTransactions.values.map Prod.snd ∧ (client.transactions index).result = none

/-- The shutdown completes every pending promise once, and removes all entries. -/
def CompletesPending (client : Client) : Prop :=
  ∃ client', client.shutdown = .ok client' ∧ client'.mTransactions.values = [] ∧
    ∀ index, client.Pending index →
      (client'.transactions index).result = some (.error .remoteException) ∧
        client'.effects.count (.completeWith index) =
          client.effects.count (.completeWith index) + 1

/-- A second shutdown has no effect. -/
def MayShutDownAgain (client : Client) : Prop :=
  ∀ client', client.shutdown = .ok client' → client'.shutdown = .ok client'

/-- What `transact` promises about the entries: their ids are different, and a promise that
is not done has the continuation that removes its entry. -/
structure Entered (client : Client) : Prop where
  distinct : (client.mTransactions.values.map Prod.fst).Nodup
  continuations : ∀ entry ∈ client.mTransactions.values,
    (client.transactions entry.2).result = none →
      (client.transactions entry.2).hasContinuation = true ∧
        (client.transactions entry.2).transactionId = entry.1

/-! ## Iterating over the table -/

section Iteration

variable {α : Type} {list : LinkedList α}

theorem successor_nonempty {node : NodeId} {next : Option NodeId}
    (found : list.successor node = .ok next) : list.nodes ≠ [] := by
  intro empty
  rw [LinkedList.successor, empty] at found
  cases found

end Iteration

/-- An iteration after the first one. -/
theorem completeNext_forward {client : Client} {node : NodeId} {next : Option NodeId}
    (found : client.mTransactions.successor node = .ok next) :
    completeNext (client, ⟨true, some node⟩) =
      match next with
      | none => .ok (.inl client)
      | some node' =>
          match client.mTransactions.dereference node' with
          | .error fault => .error (.iterator fault)
          | .ok entry => .ok (.inr (client.completeWith entry.2, ⟨true, some node'⟩)) := by
  cases next with
  | none =>
      simp only [completeNext, LinkedList.Iterator.hasNext, LinkedList.Iterator.advance, found]
      rfl
  | some node' =>
      cases read : client.mTransactions.dereference node' with
      | error fault =>
          simp only [completeNext, LinkedList.Iterator.hasNext, LinkedList.Iterator.next,
            LinkedList.Iterator.advance, found]
          simp [read, bind, Except.bind, Except.mapError, pure, Except.pure]
      | ok entry =>
          simp only [completeNext, LinkedList.Iterator.hasNext, LinkedList.Iterator.next,
            LinkedList.Iterator.advance, found]
          simp [read, bind, Except.bind, Except.mapError, pure, Except.pure]

theorem completeNext_dead {client : Client} {node : NodeId}
    (dead : node ∉ client.mTransactions.nodes.map Prod.fst) :
    completeNext (client, ⟨true, some node⟩) = .error (.iterator .deadNode) := by
  simp only [completeNext, LinkedList.Iterator.hasNext, LinkedList.Iterator.advance,
    LinkedList.successor_dead dead]
  rfl

/-- A loop that has visited a node and returns leaves a node behind. -/
theorem loop_leaves_node {fuel : Nat} {client client' : Client} {node : NodeId}
    (returns : loop completeNext (.iterator .outOfFuel) fuel (client, ⟨true, some node⟩) =
      .ok client') : client'.mTransactions.nodes ≠ [] := by
  induction fuel generalizing client node with
  | zero => cases returns
  | succ fuel ih =>
      rw [loop] at returns
      cases found : client.mTransactions.successor node with
      | error fault =>
          have throws : completeNext (client, ⟨true, some node⟩) = .error (.iterator fault) := by
            simp only [completeNext, LinkedList.Iterator.hasNext, LinkedList.Iterator.advance, found]
            rfl
          rw [throws] at returns
          cases returns
      | ok next =>
          rw [completeNext_forward found] at returns
          cases next with
          | none =>
              cases returns
              exact successor_nonempty found
          | some node' =>
              cases read : client.mTransactions.dereference node' with
              | error fault =>
                  simp only [read] at returns
                  cases returns
              | ok entry =>
                  simp only [read] at returns
                  exact ih returns

theorem completeAll_nil {client : Client} (empty : client.mTransactions.nodes = []) :
    client.completeAll = .ok client := by
  rw [completeAll, loop, completeNext, LinkedList.iterator, empty]
  rfl

theorem completeAll_cons {client : Client} {node : NodeId} {entry : Int32 × Nat}
    {behind : List (NodeId × (Int32 × Nat))}
    (front : client.mTransactions.nodes = (node, entry) :: behind) :
    client.completeAll =
      loop completeNext (.iterator .outOfFuel) (behind.length + 1)
        (client.completeWith entry.2, ⟨true, some node⟩) := by
  have first : completeNext (client, client.mTransactions.iterator) =
      .ok (.inr (client.completeWith entry.2, ⟨true, some node⟩)) := by
    simp only [completeNext, LinkedList.iterator, LinkedList.Iterator.hasNext,
      LinkedList.Iterator.next, front, List.head?_cons, Option.map_some]
    simp [LinkedList.dereference_front front, bind, Except.bind, Except.mapError, pure,
      Except.pure]
  rw [completeAll, front, List.length_cons, loop, first]

/-- A loop over a table with entries that returns does not leave it empty. -/
theorem completeAll_leaves_node {client client' : Client}
    (entries : client.mTransactions.nodes ≠ []) (returns : client.completeAll = .ok client') :
    client'.mTransactions.nodes ≠ [] := by
  cases front : client.mTransactions.nodes with
  | nil => exact absurd front entries
  | cons first behind =>
      rcases first with ⟨node, entry⟩
      rw [completeAll_cons front] at returns
      exact loop_leaves_node returns

/-- A promise that is done is left alone. -/
theorem completeWith_of_done {client : Client} {index : Nat}
    (done : (client.transactions index).result.isSome = true) :
    client.completeWith index = client :=
  if_pos done

/-- A pending promise removes the entry that the iterator stands at. -/
theorem completeWith_removes {client : Client} {before behind : List (NodeId × (Int32 × Nat))}
    {node : NodeId} {entry : Int32 × Nat} (entered : client.Entered)
    (split : client.mTransactions.nodes = before ++ (node, entry) :: behind)
    (waits : (client.transactions entry.2).result = none) :
    node ∉ (client.completeWith entry.2).mTransactions.nodes.map Prod.fst := by
  have member : entry ∈ client.mTransactions.values := by
    rw [LinkedList.values, split]
    exact List.mem_map_of_mem (List.mem_append_right _ List.mem_cons_self)
  rcases entered.continuations entry member waits with ⟨continues, same⟩
  have keys := entered.distinct
  rw [LinkedList.values, split, List.map_append, List.map_append, List.map_cons, List.map_cons,
    List.nodup_append] at keys
  have nodes := client.mTransactions.distinct
  rw [split, List.map_append, List.map_cons, List.nodup_append] at nodes
  have apart : ∀ other ∈ before, ¬(other.2.1 == entry.1) = true := by
    intro other isBefore
    rw [beq_iff_eq]
    exact keys.2.2 other.2.1 (List.mem_map_of_mem (List.mem_map_of_mem isBefore)) entry.1
      List.mem_cons_self
  have removed : (client.completeWith entry.2).mTransactions.nodes = before ++ behind := by
    have waiting : ¬(client.transactions entry.2).result.isSome = true := by
      rw [waits]
      exact Bool.false_ne_true
    have key : (Function.update client.transactions entry.2
        { client.transactions entry.2 with
          result := some (.error .remoteException)
          hasTimeout := false } entry.2).transactionId = entry.1 := by
      rw [Function.update_self]
      exact same
    rw [completeWith, if_neg waiting, if_pos continues]
    simp only [continuation, key, LinkedList.nodes_remove, split]
    rw [List.eraseP_append_right _ apart, List.eraseP_cons_of_pos (by exact beq_self_eq_true entry.1)]
  rw [removed, List.map_append, List.mem_append]
  intro found
  rcases found with inBefore | inBehind
  · exact nodes.2.2 node inBefore node List.mem_cons_self rfl
  · exact (List.nodup_cons.mp nodes.2.1).1 inBehind

/-- The loop goes on over entries whose promises are done and then uses the iterator of an
erased node, if there is a pending promise. -/
theorem loop_deadNode {client : Client} (entered : client.Entered)
    {before behind : List (NodeId × (Int32 × Nat))} {node : NodeId} {entry : Int32 × Nat}
    (split : client.mTransactions.nodes = before ++ (node, entry) :: behind)
    (pending : ∃ other ∈ (node, entry) :: behind, (client.transactions other.2.2).result = none) :
    loop completeNext (.iterator .outOfFuel) (behind.length + 1)
      (client.completeWith entry.2, ⟨true, some node⟩) = .error (.iterator .deadNode) := by
  induction behind generalizing before node entry with
  | nil =>
      rcases pending with ⟨other, member, waits⟩
      rw [List.mem_singleton.mp member] at waits
      rw [loop, completeNext_dead (completeWith_removes entered split waits)]
  | cons next behind ih =>
      rcases next with ⟨node', entry'⟩
      rw [loop]
      cases result : (client.transactions entry.2).result with
      | none => rw [completeNext_dead (completeWith_removes entered split result)]
      | some _ =>
          have done : (client.transactions entry.2).result.isSome = true := by
            rw [result]
            rfl
          have further : client.mTransactions.nodes =
              (before ++ [(node, entry)]) ++ (node', entry') :: behind := by
            rw [split, List.append_assoc]
            rfl
          have left : ∃ other ∈ (node', entry') :: behind,
              (client.transactions other.2.2).result = none := by
            rcases pending with ⟨other, member, waits⟩
            rcases List.mem_cons.mp member with rfl | later
            · rw [result] at waits
              cases waits
            · exact ⟨other, later, waits⟩
          rw [completeWith_of_done done, completeNext_forward (LinkedList.successor_middle split)]
          simp only [List.head?_cons, Option.map_some, LinkedList.dereference_middle further]
          exact ih further left

theorem completeAll_deadNode {client : Client} (entered : client.Entered)
    (pending : ∃ index, client.Pending index) :
    client.completeAll = .error (.iterator .deadNode) := by
  rcases pending with ⟨index, held, waits⟩
  rcases List.mem_map.mp held with ⟨entry, isValue, rfl⟩
  rcases List.mem_map.mp isValue with ⟨node, member, rfl⟩
  cases front : client.mTransactions.nodes with
  | nil =>
      rw [front] at member
      cases member
  | cons first behind =>
      have split : client.mTransactions.nodes = [] ++ first :: behind := front
      rw [completeAll_cons front]
      apply loop_deadNode entered split
      rw [front] at member
      exact ⟨node, member, waits⟩

/-! ## The whole shutdown -/

/-- The calls of `transact` see to what a shutdown relies on. -/
theorem entered_of_consistent {state : Transactions} (consistent : state.Consistent)
    {client : Client} (promises : client.transactions = state.transactions)
    (distinct : (client.mTransactions.values.map Prod.fst).Nodup)
    (entries : ∀ entry ∈ client.mTransactions.values,
      state.mTransactions entry.1 = some entry.2) : client.Entered where
  distinct := distinct
  continuations := by
    intro entry member waits
    rcases consistent.entry (entries entry member) with ⟨_, same, stored⟩
    have record := consistent.records entry.2
    rw [promises] at waits ⊢
    refine ⟨?_, same⟩
    rcases record.continues (.inr stored) with registered | done
    · exact registered
    · rw [← Transaction.isSome_result record, waits] at done
      cases done

theorem shutdown_eq {client : Client} (plugin : client.mPlugin = true) :
    client.shutdown = (client.leavePlugin.completeAll >>= fun client =>
      pure ((client.effect .onDisconnected).effect .post)) :=
  if_pos plugin

theorem mPlugin_completeWith (client : Client) (index : Nat) :
    (client.completeWith index).mPlugin = client.mPlugin := by
  rw [completeWith]
  split
  · rfl
  · split <;> rfl

/-- The loop does not give the client its plugin back. -/
theorem mPlugin_loop {fuel : Nat} {client client' : Client} {itr : LinkedList.Iterator}
    (returns : loop completeNext (.iterator .outOfFuel) fuel (client, itr) = .ok client') :
    client'.mPlugin = client.mPlugin := by
  induction fuel generalizing client itr with
  | zero => cases returns
  | succ fuel ih =>
      rw [loop] at returns
      cases hasNext : itr.hasNext client.mTransactions with
      | error fault =>
          simp [completeNext, hasNext, bind, Except.bind, Except.mapError] at returns
      | ok more =>
          cases more with
          | false =>
              simp [completeNext, hasNext, bind, Except.bind, Except.mapError, pure,
                Except.pure] at returns
              rw [returns]
          | true =>
              cases next : itr.next client.mTransactions with
              | error fault =>
                  simp [completeNext, hasNext, next, bind, Except.bind, Except.mapError]
                    at returns
              | ok found =>
                  simp [completeNext, hasNext, next, bind, Except.bind, Except.mapError, pure,
                    Except.pure] at returns
                  rw [ih returns, mPlugin_completeWith]

/-- A shutdown that returns has visited all entries, and the client has lost its plugin. -/
theorem shutdown_ok {client client' : Client} (returns : client.shutdown = .ok client') :
    client.mPlugin = true ∧ client'.mPlugin = false ∧
      (client.mTransactions.nodes ≠ [] → client'.mTransactions.nodes ≠ []) := by
  cases plugin : client.mPlugin with
  | false =>
      rw [shutdown, plugin] at returns
      cases returns
  | true =>
      rw [shutdown_eq plugin] at returns
      cases visited : client.leavePlugin.completeAll with
      | error fault =>
          rw [visited] at returns
          cases returns
      | ok last =>
          rw [visited] at returns
          cases returns
          refine ⟨rfl, ?_, ?_⟩
          · change last.mPlugin = false
            rw [mPlugin_loop visited]
            rfl
          · intro entries
            have entries' : client.leavePlugin.mTransactions.nodes ≠ [] := entries
            change last.mTransactions.nodes ≠ []
            exact completeAll_leaves_node entries' visited

theorem completesPending_iff (client : Client) :
    client.CompletesPending ↔ client.mPlugin = true ∧ client.mTransactions.values = [] := by
  constructor
  · rintro ⟨client', returns, empty, _⟩
    rcases shutdown_ok returns with ⟨plugin, _, leaves⟩
    refine ⟨plugin, ?_⟩
    by_cases entries : client.mTransactions.nodes = []
    · rw [LinkedList.values, entries, List.map_nil]
    · exact absurd (List.map_eq_nil_iff.mp empty) (leaves entries)
  · rintro ⟨plugin, empty⟩
    refine ⟨(client.leavePlugin.effect .onDisconnected).effect .post, ?_, empty, ?_⟩
    · have none : client.leavePlugin.mTransactions.nodes = [] := List.map_eq_nil_iff.mp empty
      rw [shutdown_eq plugin, completeAll_nil none]
      rfl
    · intro index pending
      have held := pending.1
      rw [empty] at held
      cases held

/-- No shutdown is safe: it must find no entries to iterate over them, it uses the iterator
of an erased node if there is a pending promise, and after it there is no plugin for a
second one. -/
theorem shutdown_unsafe (client : Client) :
    ¬(client.CompletesPending ∧ client.MayShutDownAgain) ∧
      (client.CompletesPending ↔ client.mPlugin = true ∧ client.mTransactions.values = []) ∧
      (client.mPlugin = true → client.Entered → (∃ index, client.Pending index) →
        client.shutdown = .error (.iterator .deadNode)) ∧
      ∀ client', client.shutdown = .ok client' → client'.shutdown = .error .nullPointer := by
  have again : ∀ client', client.shutdown = .ok client' →
      client'.shutdown = .error .nullPointer := by
    intro client' returns
    rw [shutdown, (shutdown_ok returns).2.1]
    rfl
  refine ⟨?_, completesPending_iff client, ?_, again⟩
  · rintro ⟨⟨client', returns, _⟩, mayAgain⟩
    have second := mayAgain client' returns
    rw [again client' returns] at second
    cases second
  · intro plugin entered pending
    rw [shutdown_eq plugin, completeAll_deadNode]
    · rfl
    · exact ⟨entered.distinct, entered.continuations⟩
    · rcases pending with ⟨index, held, waits⟩
      exact ⟨index, held, waits⟩

/-- A client without transactions. -/
def noTransaction : Client where
  mPlugin := true
  mTransactions := LinkedList.empty
  transactions _ := {}
  effects := []

/-- A client that waits for the answer to its first transaction. -/
def oneTransaction : Client where
  mPlugin := true
  mTransactions := LinkedList.empty.add (1, 0)
  transactions _ :=
    { transactionId := 1, hasContinuation := true, hasTimeout := true, stored := true }
  effects := []

/-- The only pending promise takes the node of the iterator away, and even without a
transaction the second shutdown has no plugin. -/
theorem oneTransaction_deadNode :
    oneTransaction.shutdown = .error (.iterator .deadNode) ∧ ¬oneTransaction.CompletesPending ∧
      ∃ client', noTransaction.shutdown = .ok client' ∧
        client'.shutdown = .error .nullPointer := by
  have throws : oneTransaction.shutdown = .error (.iterator .deadNode) := rfl
  refine ⟨throws, ?_, _, rfl, rfl⟩
  rintro ⟨client', returns, _⟩
  rw [throws] at returns
  cases returns

end Client

end Plugin

end Mindroid
