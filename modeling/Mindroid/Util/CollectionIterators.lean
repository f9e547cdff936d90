import Mathlib.Data.List.InsertIdx
import Mindroid.Util.HashMap
import Mindroid.Util.HashSet
import Mindroid.Util.Iterator

/-!
# Iterators of the collections

Each collection says what its positions are.  A hash table is a list of nodes whose order is not
changed when a node is erased.
-/

set_option autoImplicit false

namespace Mindroid

open Foundation

/-- `std::vector`, whose iterators are indices. -/
structure ArrayList (α : Type) where
  mList : List α

namespace ArrayList

variable {α : Type}

def eraseAt (list : ArrayList α) (index : Nat) : ArrayList α where
  mList := list.mList.eraseIdx index

def positions : Positions (ArrayList α) Nat α Fault :=
  .indexed mList eraseAt .deadNode

theorem positions_lawful :
    (positions (α := α)).Lawful mList (Positions.AtIndex mList) :=
  Positions.indexed_lawful fun _ _ => rfl

end ArrayList

namespace HashMap

variable {κ α ν : Type} {kind : Kind κ α ν}

/-- Erase a node.  The other ones stay in their order. -/
def eraseAt (map : HashMap kind) (index : Nat) : HashMap kind where
  entries := map.entries.eraseIdx index
  apart := map.apart.sublist (List.eraseIdx_sublist map.entries index)

def positions {ε : Type} (fault : ε) : Positions (HashMap kind) Nat (α × ν) ε :=
  .indexed entries eraseAt fault

theorem positions_lawful {ε : Type} (fault : ε) :
    (@positions κ α ν kind ε fault).Lawful entries (Positions.AtIndex entries) :=
  Positions.indexed_lawful fun _ _ => rfl

end HashMap

namespace HashSet

variable {α : Type} {same : α → α → Bool}

def values (set : HashSet same) : List α :=
  set.entries.map Prod.fst

def eraseAt (set : HashSet same) (index : Nat) : HashSet same where
  entries := set.entries.eraseIdx index
  apart := set.apart.sublist (List.eraseIdx_sublist set.entries index)

def positions : Positions (HashSet same) Nat α Fault :=
  .indexed values eraseAt .deadNode

theorem positions_lawful : (@positions α same).Lawful values (Positions.AtIndex values) :=
  Positions.indexed_lawful fun set index => (List.eraseIdx_map Prod.fst set.entries index).symm

end HashSet

namespace LinkedList

variable {α : Type}

def positions : Positions (LinkedList α) (Option NodeId) α Fault where
  start := fun list => list.iterator.mIterator
  isEnd := fun _ position => position.isNone
  advance := fun list position => Iterator.advance ⟨true, position⟩ list
  get := fun list position =>
    match position with
    | some node => list.dereference node
    | none => .error .deadNode
  erase := fun list position => do
    let next ← Iterator.advance ⟨true, position⟩ list
    match position with
    | some node => return (list.erase node, next)
    | none => .error .deadNode

/-- The methods of the iterator of a linked list are those of all iterators. -/
theorem iterator_eq (itr : Iterator) (list : LinkedList α) :
    itr.hasNext list =
        Mindroid.Iterator.hasNext positions list ⟨itr.mForwardIterator, itr.mIterator⟩ ∧
      itr.next list =
        (Mindroid.Iterator.next positions list ⟨itr.mForwardIterator, itr.mIterator⟩).map
          (fun got => (got.1, ⟨got.2.mForwardIterator, got.2.mIterator⟩)) ∧
      itr.remove list =
        (Mindroid.Iterator.remove positions list ⟨itr.mForwardIterator, itr.mIterator⟩).map
          (fun result => (⟨result.2.1.mForwardIterator, result.2.1.mIterator⟩, result.2.2)) := by
  rcases itr with ⟨_ | _, position⟩
  · refine ⟨?_, ?_, ?_⟩
    · cases position <;> rfl
    · cases position with
      | none => rfl
      | some node =>
          change (list.dereference node).bind _ = ((list.dereference node).bind _).map _
          cases list.dereference node <;> rfl
    · rfl
  · cases position with
    | none => exact ⟨rfl, rfl, rfl⟩
    | some node =>
        refine ⟨?_, ?_, ?_⟩
        · change (list.successor node).bind _ = (list.successor node).bind _
          cases list.successor node with
          | error => rfl
          | ok next => cases next <;> rfl
        · change (list.successor node).bind _ = ((list.successor node).bind _).map _
          cases list.successor node with
          | error => rfl
          | ok next =>
              cases next with
              | none => rfl
              | some node =>
                  change (list.dereference node).bind _ = ((list.dereference node).bind _).map _
                  cases list.dereference node <;> rfl
        · change (list.successor node).bind _ = (((list.successor node).bind _).bind _).map _
          cases list.successor node <;> rfl

/-- A position is at the first one of the nodes that are to come. -/
def AtNode (list : LinkedList α) (position : Option NodeId) (before after : List α) : Prop :=
  ∃ front back, list.nodes = front ++ back ∧ position = back.head?.map Prod.fst ∧
    front.map Prod.snd = before ∧ back.map Prod.snd = after

theorem positions_lawful : (positions (α := α)).Lawful values AtNode where
  start := fun list => ⟨[], list.nodes, rfl, rfl, rfl, rfl⟩
  elements := by
    rintro list _ _ _ ⟨front, back, parts, -, rfl, rfl⟩
    rw [values, parts, List.map_append]
  isEnd := by
    rintro list _ _ _ ⟨front, back, -, rfl, -, rfl⟩
    cases back <;> rfl
  advance := by
    rintro list _ _ element _ ⟨front, _ | ⟨⟨node, value⟩, back⟩, parts, rfl, rfl, whole⟩
    · cases whole
    · cases whole
      refine ⟨_, successor_middle parts, front ++ [(node, value)], back, ?_, rfl, by simp, rfl⟩
      rw [parts, List.append_assoc, List.singleton_append]
  get := by
    rintro list _ _ element _ ⟨front, _ | ⟨⟨node, value⟩, back⟩, parts, rfl, rfl, whole⟩
    · cases whole
    · cases whole
      exact dereference_middle parts
  erase := by
    rintro list _ _ element _ ⟨front, _ | ⟨⟨node, value⟩, back⟩, parts, rfl, rfl, whole⟩
    · cases whole
    · cases whole
      refine ⟨list.erase node, back.head?.map Prod.fst, ?_, front, back,
        nodes_erase_middle parts, rfl, rfl, rfl⟩
      change (list.successor node).bind _ = _
      rw [successor_middle parts]
      rfl

end LinkedList

namespace Iterator

/-- While a collection is iterated over, elements can be removed: for lists and tables of any
elements, plain ones and objects. -/
theorem collections_sweep :
    (∀ α : Type, Sweeps (ArrayList.positions (α := α)) ArrayList.mList) ∧
      (∀ α : Type, Sweeps (LinkedList.positions (α := α)) LinkedList.values) ∧
      (∀ (κ α ν : Type) (kind : HashMap.Kind κ α ν),
        Sweeps (@HashMap.positions κ α ν kind _ .deadNode) HashMap.entries) ∧
      ∀ (α : Type) (same : α → α → Bool),
        Sweeps (@HashSet.positions α same) HashSet.values :=
  ⟨fun _ => .of_lawful ArrayList.positions_lawful, fun _ => .of_lawful LinkedList.positions_lawful,
    fun _ _ _ _ => .of_lawful (HashMap.positions_lawful Fault.deadNode),
    fun _ _ => .of_lawful HashSet.positions_lawful⟩

end Iterator

end Mindroid
