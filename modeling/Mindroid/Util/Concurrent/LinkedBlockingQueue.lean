import Mindroid.Foundation.DoublyLinked
import Mindroid.Foundation.Loop
import Mindroid.Foundation.NodeHeap

/-!
# Blocking queue

`LinkedBlockingQueue` is a singly linked list without a tail pointer.  A method is modelled by
what it does while it holds the lock; `take` does this again after every wait.
-/

set_option autoImplicit false

namespace Mindroid

open Foundation

/-- `LinkedBlockingQueue::Node`. -/
structure QueueNode (T : Type) where
  item : T
  nextNode : Option Nat

/-- The queue and the memory of its nodes. -/
structure LinkedBlockingQueue (T : Type) where
  heap : NodeHeap (QueueNode T)
  mHeadNode : Option Nat

namespace LinkedBlockingQueue

variable {T : Type}

/-- Why a method does not get to its end. -/
inductive Crash where
  | nullPointer
  | deadNode
  | outOfFuel
  deriving DecidableEq

def empty : LinkedBlockingQueue T where
  heap := .empty
  mHeadNode := none

/-- One iteration of the loop of `put`, with `prevNode` and `curNode`. -/
def findLast (heap : NodeHeap (QueueNode T)) :
    Option Nat × Option Nat → Except Crash (Option Nat ⊕ (Option Nat × Option Nat))
  | (prevNode, none) => .ok (.inl prevNode)
  | (_, some curNode) => do
      let node ← heap.read .deadNode curNode
      return .inr (some curNode, node.nextNode)

/-- `node->nextNode = link`. -/
def setNextNode (heap : NodeHeap (QueueNode T)) (node : Nat) (link : Option Nat) :
    Except Crash (NodeHeap (QueueNode T)) :=
  heap.modify .deadNode node fun stored => { stored with nextNode := link }

def put (queue : LinkedBlockingQueue T) (item : T) : Except Crash (LinkedBlockingQueue T) := do
  let node := queue.heap.allocated
  let heap := queue.heap.new ⟨item, none⟩
  match queue.mHeadNode with
  | none =>
      let heap ← setNextNode heap node none
      return ⟨heap, some node⟩
  | some curNode =>
      match ← loop (findLast heap) .outOfFuel (heap.allocated + 1) (none, some curNode) with
      | none => .error .nullPointer
      | some prevNode =>
          let last ← heap.read .deadNode prevNode
          let heap ← setNextNode heap node last.nextNode
          let heap ← setNextNode heap prevNode (some node)
          return ⟨heap, queue.mHeadNode⟩

def getNextNode (queue : LinkedBlockingQueue T) :
    Except Crash (Option Nat × LinkedBlockingQueue T) :=
  match queue.mHeadNode with
  | some node => do
      let stored ← queue.heap.read .deadNode node
      return (some node, { queue with mHeadNode := stored.nextNode })
  | none => .ok (none, queue)

/-- One iteration of the loop of `take`, which waits if it gets no item. -/
def take (queue : LinkedBlockingQueue T) : Except Crash (Option T × LinkedBlockingQueue T) := do
  let (node, queue) ← queue.getNextNode
  match node with
  | some node =>
      let stored ← queue.heap.read .deadNode node
      let heap ← queue.heap.delete .deadNode node
      return (some stored.item, { queue with heap := heap })
  | none => return (none, queue)

section Removal

variable [BEq T]

/-- A removal between two iterations: `curNode` and `foundItem`. -/
structure Removal (T : Type) where
  queue : LinkedBlockingQueue T
  curNode : Option Nat
  foundItem : Bool

/-- One iteration of the first loop of `remove`. -/
def removeFront (item : T) (st : Removal T) : Except Crash (Removal T ⊕ Removal T) :=
  match st.curNode with
  | none => .ok (.inl st)
  | some curNode => do
      let stored ← st.queue.heap.read .deadNode curNode
      if stored.item == item then
        let heap ← st.queue.heap.delete .deadNode curNode
        return .inr ⟨⟨heap, stored.nextNode⟩, stored.nextNode, true⟩
      else
        return .inl st

/-- One iteration of the second loop of `remove`. -/
def removeBehind (item : T) (st : Removal T) : Except Crash (Removal T ⊕ Removal T) :=
  match st.curNode with
  | none => .ok (.inl st)
  | some curNode => do
      let stored ← st.queue.heap.read .deadNode curNode
      match stored.nextNode with
      | none => return .inr { st with curNode := none }
      | some nextNode =>
          let next ← st.queue.heap.read .deadNode nextNode
          if next.item == item then
            let heap ← st.queue.heap.delete .deadNode nextNode
            let heap ← setNextNode heap curNode next.nextNode
            return .inr ⟨{ st.queue with heap := heap }, some curNode, true⟩
          else
            return .inr { st with curNode := some nextNode }

def remove (queue : LinkedBlockingQueue T) (item : T) :
    Except Crash (Bool × LinkedBlockingQueue T) := do
  let fuel := queue.heap.allocated + 2
  let st ← loop (removeFront item) .outOfFuel fuel ⟨queue, queue.mHeadNode, false⟩
  let st ← loop (removeBehind item) .outOfFuel fuel st
  return (st.foundItem, st.queue)

end Removal

/-- One iteration of the loop of the destructor. -/
def deleteNext :
    NodeHeap (QueueNode T) × Option Nat →
      Except Crash (NodeHeap (QueueNode T) ⊕ (NodeHeap (QueueNode T) × Option Nat))
  | (heap, none) => .ok (.inl heap)
  | (heap, some node) => do
      let stored ← heap.read .deadNode node
      let heap ← heap.delete .deadNode node
      return .inr (heap, stored.nextNode)

/-- The destructor. -/
def destroy (queue : LinkedBlockingQueue T) : Except Crash (NodeHeap (QueueNode T)) :=
  loop deleteNext .outOfFuel (queue.heap.allocated + 1) (queue.heap, queue.mHeadNode)

/-! ## The nodes of a queue -/

/-- The link of a node. -/
def next (content : Nat → Option (QueueNode T)) (node : Nat) : Option Nat :=
  (content node).bind QueueNode.nextNode

/-- The links from `start` on lead through these nodes with these items. -/
structure Spells (content : Nat → Option (QueueNode T)) (start : Option Nat)
    (entries : List (Nat × T)) : Prop where
  path : LinkPath (next content) start (entries.map Prod.fst) none
  distinct : (entries.map Prod.fst).Nodup
  items : ∀ entry ∈ entries, ∃ link, content entry.1 = some ⟨entry.2, link⟩

/-- No other node is alive. -/
structure Holds (content : Nat → Option (QueueNode T)) (start : Option Nat)
    (entries : List (Nat × T)) : Prop where
  spells : Spells content start entries
  owned : ∀ node, (content node).isSome → node ∈ entries.map Prod.fst

theorem empty_holds : Holds (empty : LinkedBlockingQueue T).heap.content none [] where
  spells := ⟨rfl, List.nodup_nil, nofun⟩
  owned := nofun

section Layout

variable {content : Nat → Option (QueueNode T)} {start : Option Nat}
  {entries front back : List (Nat × T)} {node : Nat} {item : T}

theorem next_update (change : Option (QueueNode T)) :
    next (Function.update content node change) =
      Function.update (next content) node (change.bind QueueNode.nextNode) :=
  Function.comp_update (Option.bind · QueueNode.nextNode) content node change

namespace Spells

theorem start_eq (spells : Spells content start entries) :
    start = entries.head?.map Prod.fst := by
  rw [spells.path.start_eq_head?, List.head?_map]

/-- What a node of the list has in it. -/
theorem content_eq (spells : Spells content start (front ++ (node, item) :: back)) :
    content node = some ⟨item, back.head?.map Prod.fst⟩ := by
  obtain ⟨link, isThere⟩ := spells.items (node, item)
    (List.mem_append_right front List.mem_cons_self)
  have path := spells.path
  rw [List.map_append, List.map_cons] at path
  have follows := path.next_eq
  rw [next, isThere, List.head?_map] at follows
  rw [isThere, ← follows]
  rfl

theorem first_eq (spells : Spells content start ((node, item) :: back)) :
    content node = some ⟨item, back.head?.map Prod.fst⟩ := by
  have whole : Spells content start ([] ++ (node, item) :: back) := spells
  exact whole.content_eq

theorem isSome (spells : Spells content start entries) :
    ∀ node ∈ entries.map Prod.fst, (content node).isSome := by
  intro node member
  obtain ⟨entry, isEntry, rfl⟩ := List.mem_map.mp member
  obtain ⟨link, isThere⟩ := spells.items entry isEntry
  exact Option.isSome_of_eq_some isThere

theorem length_le {heap : NodeHeap (QueueNode T)} (spells : Spells heap.content start entries) :
    entries.length ≤ heap.allocated := by
  have bound := NodeHeap.length_le spells.distinct spells.isSome
  rwa [List.length_map] at bound

/-- A node that is changed outside of the list. -/
theorem frame (spells : Spells content start entries) (change : Option (QueueNode T))
    (outside : node ∉ entries.map Prod.fst) :
    Spells (Function.update content node change) start entries where
  path := by
    rw [next_update]
    exact spells.path.update_of_not_mem _ outside
  distinct := spells.distinct
  items := by
    intro entry member
    have apart : entry.1 ≠ node := fun same => outside (same ▸ List.mem_map_of_mem member)
    rw [Function.update_of_ne apart]
    exact spells.items entry member

theorem new {heap : NodeHeap (QueueNode T)} (spells : Spells heap.content start entries)
    (created : QueueNode T) : Spells (heap.new created).content start entries := by
  apply spells.frame
  intro member
  have isAlive := spells.isSome heap.allocated member
  rw [heap.content_allocated] at isAlive
  cases isAlive

/-- The list behind a node. -/
theorem behind {link : Option Nat}
    (spells : Spells content start (front ++ (node, item) :: back))
    (isThere : content node = some ⟨item, link⟩) : Spells content link back where
  path := by
    have path := spells.path
    rw [List.map_append, List.map_cons] at path
    obtain ⟨_, -, -, rest⟩ := LinkPath.append_iff.mp path
    rw [next, isThere] at rest
    exact rest
  distinct := by
    have distinct := spells.distinct
    rw [List.map_append, List.map_cons, List.nodup_append] at distinct
    exact (List.nodup_cons.mp distinct.2.1).2
  items := fun entry member =>
    spells.items entry (List.mem_append_right front (List.mem_cons_of_mem _ member))

/-- A new link of a node of the list. -/
theorem relink {link : Option Nat} {back' : List (Nat × T)}
    (spells : Spells content start (front ++ (node, item) :: back))
    (tail : Spells (Function.update content node (some ⟨item, link⟩)) link back')
    (distinct : ((front ++ (node, item) :: back').map Prod.fst).Nodup) :
    Spells (Function.update content node (some ⟨item, link⟩)) start
      (front ++ (node, item) :: back') where
  path := by
    have path := spells.path
    have distinct := spells.distinct
    have rest := tail.path
    rw [next_update] at rest ⊢
    rw [List.map_append, List.map_cons] at path distinct ⊢
    exact path.redirect link distinct rest
  distinct := distinct
  items := by
    rw [List.map_append, List.map_cons, List.nodup_append] at distinct
    intro entry member
    rcases List.mem_append.mp member with isFront | isNode | isBack
    · have apart := distinct.2.2 entry.1 (List.mem_map_of_mem isFront) node List.mem_cons_self
      rw [Function.update_of_ne apart]
      exact spells.items entry (List.mem_append_left _ isFront)
    · exact ⟨link, Function.update_self _ _ _⟩
    · exact tail.items entry (by assumption)

end Spells

theorem isSome_update {change : Option (QueueNode T)} {other : Nat}
    (isAlive : (Function.update content node change other).isSome) :
    (other = node ∧ change.isSome) ∨ (other ≠ node ∧ (content other).isSome) := by
  by_cases same : other = node
  · rw [same, Function.update_self] at isAlive
    exact .inl ⟨same, isAlive⟩
  · rw [Function.update_of_ne same] at isAlive
    exact .inr ⟨same, isAlive⟩

theorem mem_middle : node ∈ (front ++ (node, item) :: back).map Prod.fst :=
  List.mem_map.mpr ⟨(node, item), List.mem_append_right front List.mem_cons_self, rfl⟩

theorem nodup_without {entry : Nat × T}
    (distinct : ((front ++ entry :: back).map Prod.fst).Nodup) :
    entry.1 ∉ (front ++ back).map Prod.fst ∧ ((front ++ back).map Prod.fst).Nodup := by
  rw [List.map_append, List.map_cons] at distinct
  rw [List.map_append]
  exact List.nodup_cons.mp (List.nodup_middle.mp distinct)

namespace Holds

/-- The first node is deleted, and its link is the new head. -/
theorem deleteHead {link : Option Nat} (holds : Holds content start ((node, item) :: back))
    (isThere : content node = some ⟨item, link⟩) :
    Holds (Function.update content node none) link back where
  spells := by
    have whole : Spells content start ([] ++ (node, item) :: back) := holds.spells
    exact (whole.behind isThere).frame none (List.nodup_cons.mp holds.spells.distinct).1
  owned := by
    intro other isAlive
    rcases isSome_update isAlive with ⟨-, isNone⟩ | ⟨apart, wasAlive⟩
    · cases isNone
    · exact (List.mem_cons.mp (holds.owned other wasAlive)).resolve_left apart

/-- The node behind another one is deleted, and its link is that of the other one. -/
theorem deleteBehind {cur removed : Nat} {first second : T} {link : Option Nat}
    (holds : Holds content start (front ++ (cur, first) :: (removed, second) :: back))
    (isThere : content removed = some ⟨second, link⟩) :
    Holds (Function.update (Function.update content removed none) cur (some ⟨first, link⟩)) start
      (front ++ (cur, first) :: back) := by
  have regroup : ∀ rest : List (Nat × T),
      front ++ (cur, first) :: rest = (front ++ [(cur, first)]) ++ rest := fun rest => by
    rw [List.append_assoc, List.singleton_append]
  have spells := holds.spells
  rw [regroup] at spells
  obtain ⟨absent, distinct⟩ := nodup_without spells.distinct
  rw [← regroup] at absent distinct
  have apart : removed ≠ cur := by
    rintro rfl
    exact absent mem_middle
  have isLast : cur ∉ back.map Prod.fst := fun member =>
    (nodup_without distinct).1 (by
      rw [List.map_append]
      exact List.mem_append_right _ member)
  constructor
  case spells =>
    rw [Function.update_comm apart]
    refine (holds.spells.relink ?_ distinct).frame none absent
    exact (spells.behind isThere).frame _ isLast
  case owned =>
    intro other isAlive
    have isEntry : other ≠ removed ∧ other ∈ (front ++ (cur, first) ::
        (removed, second) :: back).map Prod.fst := by
      rcases isSome_update isAlive with ⟨rfl, -⟩ | ⟨-, wasAlive⟩
      · exact ⟨apart.symm, mem_middle⟩
      · rcases isSome_update wasAlive with ⟨-, isNone⟩ | ⟨different, wasAlive⟩
        · cases isNone
        · exact ⟨different, holds.owned other wasAlive⟩
    obtain ⟨different, member⟩ := isEntry
    simp only [List.map_append, List.map_cons, List.mem_append, List.mem_cons] at member ⊢
    tauto

/-- A new node behind the last one. -/
theorem append {last fresh : Nat} {first : T}
    (holds : Holds content start (front ++ [(last, first)])) (isFresh : content fresh = none) :
    Holds (Function.update (Function.update content fresh (some ⟨item, none⟩)) last
      (some ⟨first, some fresh⟩)) start (front ++ [(last, first), (fresh, item)]) := by
  have absent : fresh ∉ (front ++ [(last, first)]).map Prod.fst := by
    intro member
    have isAlive := holds.spells.isSome fresh member
    rw [isFresh] at isAlive
    cases isAlive
  have apart : fresh ≠ last := by
    rintro rfl
    exact absent mem_middle
  have regroup : front ++ [(last, first), (fresh, item)] =
      (front ++ [(last, first)]) ++ [(fresh, item)] := by
    rw [List.append_assoc, List.singleton_append]
  constructor
  case spells =>
    apply (holds.spells.frame (some ⟨item, none⟩) absent).relink
    · constructor
      case path =>
        refine ⟨rfl, ?_⟩
        rw [next, Function.update_of_ne apart, Function.update_self]
        rfl
      case distinct => exact List.nodup_singleton fresh
      case items =>
        intro entry member
        rw [List.mem_singleton.mp member, Function.update_of_ne apart, Function.update_self]
        exact ⟨none, rfl⟩
    · rw [regroup, List.map_append]
      exact holds.spells.distinct.append (List.nodup_singleton fresh)
        (List.disjoint_singleton.mpr absent)
  case owned =>
    intro other isAlive
    rw [regroup, List.map_append, List.mem_append]
    rcases isSome_update isAlive with ⟨rfl, -⟩ | ⟨-, wasAlive⟩
    · exact .inl mem_middle
    · rcases isSome_update wasAlive with ⟨rfl, -⟩ | ⟨-, wasAlive⟩
      · exact .inr List.mem_cons_self
      · exact .inl (holds.owned other wasAlive)

/-- The first node of a queue. -/
theorem first {fresh : Nat} (holds : Holds content start []) :
    Holds (Function.update content fresh (some ⟨item, none⟩)) (some fresh) [(fresh, item)] where
  spells := by
    constructor
    case path =>
      refine ⟨rfl, ?_⟩
      rw [next, Function.update_self]
      rfl
    case distinct => exact List.nodup_singleton fresh
    case items =>
      intro entry member
      rw [List.mem_singleton.mp member, Function.update_self]
      exact ⟨none, rfl⟩
  owned := by
    intro other isAlive
    rcases isSome_update isAlive with ⟨rfl, -⟩ | ⟨-, wasAlive⟩
    · exact List.mem_cons_self
    · exact absurd (holds.owned other wasAlive) List.not_mem_nil

end Holds

end Layout

end LinkedBlockingQueue

end Mindroid
