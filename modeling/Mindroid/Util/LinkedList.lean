import Mathlib.Data.List.Nodup
import Mathlib.Data.List.TakeWhile

/-!
# Linked list

`mindroid::LinkedList` is a `std::list`.  Every node has an identity that is never
used again, so an iterator whose node has been erased differs from one that stands
at a node of the list.
-/

set_option autoImplicit false

namespace Mindroid

abbrev NodeId := Nat

/-- Why a computation of the model stops.  `deadNode` is the use of an iterator whose
node has been erased. -/
inductive Fault where
  | deadNode
  | outOfFuel
  deriving DecidableEq

structure LinkedList (α : Type) where
  nodes : List (NodeId × α)
  nextNode : NodeId
  allocated : ∀ node ∈ nodes, node.1 < nextNode
  distinct : (nodes.map Prod.fst).Nodup

namespace LinkedList

variable {α : Type}

def empty : LinkedList α where
  nodes := []
  nextNode := 0
  allocated := by simp
  distinct := by simp

def values (list : LinkedList α) : List α :=
  list.nodes.map Prod.snd

/-- Keep a part of the nodes. -/
def restrict (list : LinkedList α) (kept : List (NodeId × α)) (part : kept.Sublist list.nodes) :
    LinkedList α where
  nodes := kept
  nextNode := list.nextNode
  allocated node member := list.allocated node (part.subset member)
  distinct := list.distinct.sublist (part.map Prod.fst)

/-- `LinkedList::add`. -/
def add (list : LinkedList α) (value : α) : LinkedList α where
  nodes := list.nodes ++ [(list.nextNode, value)]
  nextNode := list.nextNode + 1
  allocated node member := by
    rcases List.mem_append.mp member with old | new
    · exact Nat.lt_succ_of_lt (list.allocated node old)
    · rw [List.mem_singleton.mp new]
      exact Nat.lt_succ_self list.nextNode
  distinct := by
    rw [List.map_append, List.nodup_append]
    refine ⟨list.distinct, List.nodup_singleton _, ?_⟩
    intro old isOld new isNew same
    obtain ⟨node, member, rfl⟩ := List.mem_map.mp isOld
    rw [List.map_singleton, List.mem_singleton] at isNew
    exact Nat.ne_of_lt (list.allocated node member) (same.trans isNew)

/-- `LinkedList::remove` of the first element that equals the given one. -/
def remove (list : LinkedList α) (equals : α → Bool) : LinkedList α :=
  list.restrict (list.nodes.eraseP fun node => equals node.2) List.eraseP_sublist

/-- `std::list::erase`. -/
def erase (list : LinkedList α) (node : NodeId) : LinkedList α :=
  list.restrict (list.nodes.eraseP fun other => other.1 == node) List.eraseP_sublist

/-- The element of a node. -/
def dereference (list : LinkedList α) (node : NodeId) : Except Fault α :=
  match list.nodes.find? fun other => other.1 == node with
  | some other => .ok other.2
  | none => .error .deadNode

/-- The node behind a node, or none for `end()`. -/
def successor (list : LinkedList α) (node : NodeId) : Except Fault (Option NodeId) :=
  match list.nodes.dropWhile fun other => other.1 != node with
  | _ :: behind => .ok (behind.head?.map Prod.fst)
  | [] => .error .deadNode

/-- `LinkedList::Iterator`.  The iterator stands at a node or at `end()`. -/
structure Iterator where
  mForwardIterator : Bool
  mIterator : Option NodeId
  deriving DecidableEq

def iterator (list : LinkedList α) : Iterator where
  mForwardIterator := false
  mIterator := list.nodes.head?.map Prod.fst

namespace Iterator

/-- `++mIterator`. -/
def advance (itr : Iterator) (list : LinkedList α) : Except Fault (Option NodeId) :=
  match itr.mIterator with
  | some node => list.successor node
  | none => .error .deadNode

def hasNext (itr : Iterator) (list : LinkedList α) : Except Fault Bool :=
  if !itr.mForwardIterator then
    .ok itr.mIterator.isSome
  else do
    let next ← itr.advance list
    return next.isSome

def next (itr : Iterator) (list : LinkedList α) : Except Fault (α × Iterator) := do
  let node ← if !itr.mForwardIterator then .ok itr.mIterator else itr.advance list
  match node with
  | some node => return (← list.dereference node, ⟨true, some node⟩)
  | none => .error .deadNode

def remove (itr : Iterator) (list : LinkedList α) : Except Fault (Iterator × LinkedList α) :=
  match itr.mForwardIterator, itr.mIterator with
  | true, some node => do
      let next ← list.successor node
      return (⟨false, next⟩, list.erase node)
  | true, none => .error .deadNode
  | false, _ => .ok (itr, list)

end Iterator

/-! ## Nodes of a list -/

@[simp] theorem nodes_restrict (list : LinkedList α) (kept : List (NodeId × α))
    (part : kept.Sublist list.nodes) : (list.restrict kept part).nodes = kept := rfl

@[simp] theorem nodes_add (list : LinkedList α) (value : α) :
    (list.add value).nodes = list.nodes ++ [(list.nextNode, value)] := rfl

@[simp] theorem nodes_remove (list : LinkedList α) (equals : α → Bool) :
    (list.remove equals).nodes = list.nodes.eraseP fun node => equals node.2 := rfl

/-- An element that is added and removed at once leaves no node behind. -/
theorem nodes_remove_add (list : LinkedList α) {value : α} {equals : α → Bool}
    (itself : equals value = true) (others : ∀ node ∈ list.nodes, equals node.2 = false) :
    ((list.add value).remove equals).nodes = list.nodes := by
  rw [nodes_remove, nodes_add, List.eraseP_append_right]
  · rw [List.eraseP_cons_of_pos (by exact itself), List.append_nil]
  · intro node member
    rw [others node member]
    exact Bool.false_ne_true

section Nodes

variable {list : LinkedList α} {node : NodeId} {value : α} {front behind : List (NodeId × α)}

/-- The nodes before a node are other ones. -/
theorem front_other (parts : list.nodes = front ++ (node, value) :: behind) :
    ∀ other ∈ front, other.1 ≠ node := by
  intro other member same
  have distinct := list.distinct
  rw [parts, List.map_append, List.map_cons, List.nodup_append] at distinct
  exact distinct.2.2 other.1 (List.mem_map_of_mem member) node List.mem_cons_self same

theorem dereference_middle (parts : list.nodes = front ++ (node, value) :: behind) :
    list.dereference node = .ok value := by
  have others := front_other parts
  have skipped : front.find? (fun other => other.1 == node) = none := by
    rw [List.find?_eq_none]
    intro other member
    rw [beq_iff_eq]
    exact others other member
  rw [dereference, parts, List.find?_append, skipped, Option.none_or,
    List.find?_cons_of_pos (by simp)]

theorem successor_middle (parts : list.nodes = front ++ (node, value) :: behind) :
    list.successor node = .ok (behind.head?.map Prod.fst) := by
  have others := front_other parts
  have skipped : (front ++ (node, value) :: behind).dropWhile (fun other => other.1 != node) =
      (node, value) :: behind := by
    rw [List.dropWhile_append_of_pos fun other member => bne_iff_ne.mpr (others other member),
      List.dropWhile_cons_of_neg (by simp)]
  rw [successor, parts, skipped]

theorem nodes_erase_middle (parts : list.nodes = front ++ (node, value) :: behind) :
    (list.erase node).nodes = front ++ behind := by
  have others := front_other parts
  rw [erase, nodes_restrict, parts, List.eraseP_append_right _ fun other member =>
    beq_iff_eq.not.mpr (others other member), List.eraseP_cons_of_pos (by simp)]

theorem dereference_front (parts : list.nodes = (node, value) :: behind) :
    list.dereference node = .ok value := by
  have whole : list.nodes = [] ++ (node, value) :: behind := parts
  exact dereference_middle whole

theorem successor_front (parts : list.nodes = (node, value) :: behind) :
    list.successor node = .ok (behind.head?.map Prod.fst) := by
  have whole : list.nodes = [] ++ (node, value) :: behind := parts
  exact successor_middle whole

theorem nodes_erase_front (parts : list.nodes = (node, value) :: behind) :
    (list.erase node).nodes = behind := by
  have whole : list.nodes = [] ++ (node, value) :: behind := parts
  exact nodes_erase_middle whole

/-- An iterator at a node that is not in the list must not be dereferenced. -/
theorem dereference_dead (dead : node ∉ list.nodes.map Prod.fst) :
    list.dereference node = .error .deadNode := by
  rw [dereference, List.find?_eq_none.mpr]
  intro other member
  rw [beq_iff_eq]
  rintro rfl
  exact dead (List.mem_map_of_mem member)

/-- An iterator at a node that is not in the list must not be advanced. -/
theorem successor_dead (dead : node ∉ list.nodes.map Prod.fst) :
    list.successor node = .error .deadNode := by
  have skipped : list.nodes.dropWhile (fun other => other.1 != node) = [] := by
    apply List.dropWhile_eq_nil_iff.mpr
    intro other member
    rw [bne_iff_ne]
    rintro rfl
    exact dead (List.mem_map_of_mem member)
  rw [successor, skipped]

/-- A part of the nodes that still has the first one still starts with it. -/
theorem front_of_sublist {nodes : List (NodeId × α)}
    (distinct : (((node, value) :: behind).map Prod.fst).Nodup)
    (part : nodes.Sublist ((node, value) :: behind)) (alive : node ∈ nodes.map Prod.fst) :
    ∃ kept, nodes = (node, value) :: kept ∧ kept.Sublist behind := by
  cases part with
  | cons _ within =>
      rw [List.map_cons, List.nodup_cons] at distinct
      exact absurd ((within.map Prod.fst).subset alive) distinct.1
  | cons_cons _ within => exact ⟨_, rfl, within⟩

end Nodes

end LinkedList

end Mindroid
