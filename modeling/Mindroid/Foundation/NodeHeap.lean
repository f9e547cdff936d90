import Mathlib.Data.List.Nodup
import Mathlib.Data.List.Perm.Subperm
import Mathlib.Data.List.Range
import Mathlib.Logic.Function.Basic

/-!
# Heaps of nodes

Nodes are created and deleted.  The address of a node is never used again, so the use of a deleted
node can be told from that of another one, and every node is deleted at most once.
-/

set_option autoImplicit false

namespace Foundation

/-- The nodes that are alive, and the addresses of those that were deleted. -/
structure NodeHeap (β : Type) where
  content : Nat → Option β
  allocated : Nat
  freed : List Nat
  once : freed.Nodup
  known : ∀ address ∈ freed, address < allocated
  alive : ∀ address, (content address).isSome ↔ address < allocated ∧ address ∉ freed

namespace NodeHeap

variable {β ε : Type}

def empty : NodeHeap β where
  content := fun _ => none
  allocated := 0
  freed := []
  once := List.nodup_nil
  known := nofun
  alive := fun address => iff_of_false nofun fun both => absurd both.1 (Nat.not_lt_zero address)

/-- Create a node.  Its address is `allocated`. -/
def new (heap : NodeHeap β) (created : β) : NodeHeap β where
  content := Function.update heap.content heap.allocated (some created)
  allocated := heap.allocated + 1
  freed := heap.freed
  once := heap.once
  known := fun address member => Nat.lt_succ_of_lt (heap.known address member)
  alive address := by
    by_cases same : address = heap.allocated
    · subst same
      rw [Function.update_self]
      refine iff_of_true rfl ⟨Nat.lt_succ_self _, fun member => ?_⟩
      exact Nat.lt_irrefl _ (heap.known _ member)
    · rw [Function.update_of_ne same, heap.alive]
      exact and_congr_left fun _ => ⟨Nat.lt_succ_of_lt, fun less => by omega⟩

/-- Overwrite a node. -/
def set (heap : NodeHeap β) (address : Nat) (written : β)
    (isAlive : (heap.content address).isSome) : NodeHeap β where
  content := Function.update heap.content address (some written)
  allocated := heap.allocated
  freed := heap.freed
  once := heap.once
  known := heap.known
  alive other := by
    by_cases same : other = address
    · subst same
      rw [Function.update_self]
      exact iff_of_true rfl ((heap.alive other).mp isAlive)
    · rw [Function.update_of_ne same]
      exact heap.alive other

/-- Delete a node. -/
def free (heap : NodeHeap β) (address : Nat) (isAlive : (heap.content address).isSome) :
    NodeHeap β where
  content := Function.update heap.content address none
  allocated := heap.allocated
  freed := heap.freed ++ [address]
  once := by
    have fresh := ((heap.alive address).mp isAlive).2
    rw [List.nodup_append]
    refine ⟨heap.once, List.nodup_singleton address, fun old member new isNew same => ?_⟩
    rw [List.mem_singleton] at isNew
    exact fresh (isNew ▸ same ▸ member)
  known other member := by
    rcases List.mem_append.mp member with isFreed | isNew
    · exact heap.known other isFreed
    · rw [List.mem_singleton.mp isNew]
      exact ((heap.alive address).mp isAlive).1
  alive other := by
    rw [List.mem_append, List.mem_singleton, not_or]
    by_cases same : other = address
    · subst same
      rw [Function.update_self]
      exact iff_of_false nofun fun both => both.2.2 rfl
    · rw [Function.update_of_ne same, heap.alive]
      exact and_congr_right fun _ => ⟨fun absent => ⟨absent, same⟩, And.left⟩

@[simp] theorem content_new (heap : NodeHeap β) (created : β) :
    (heap.new created).content =
      Function.update heap.content heap.allocated (some created) := rfl

theorem content_allocated (heap : NodeHeap β) : heap.content heap.allocated = none := by
  rw [← Option.not_isSome_iff_eq_none, heap.alive]
  exact fun both => Nat.lt_irrefl _ both.1

/-! ## Uses of nodes -/

/-- Read a node, which must be alive. -/
def read (dead : ε) (heap : NodeHeap β) (address : Nat) : Except ε β :=
  match heap.content address with
  | some stored => .ok stored
  | none => .error dead

def modify (dead : ε) (heap : NodeHeap β) (address : Nat) (change : β → β) :
    Except ε (NodeHeap β) :=
  match read : heap.content address with
  | some stored => .ok (heap.set address (change stored) (Option.isSome_of_eq_some read))
  | none => .error dead

def delete (dead : ε) (heap : NodeHeap β) (address : Nat) : Except ε (NodeHeap β) :=
  if isAlive : (heap.content address).isSome then
    .ok (heap.free address isAlive)
  else
    .error dead

variable {heap : NodeHeap β} {address : Nat} {stored : β} (dead : ε)

theorem read_eq (isThere : heap.content address = some stored) :
    heap.read dead address = .ok stored := by
  rw [read, isThere]

theorem modify_ok (isThere : heap.content address = some stored) (change : β → β) :
    ∃ heap', heap.modify dead address change = .ok heap' ∧
      heap'.content = Function.update heap.content address (some (change stored)) ∧
      heap'.allocated = heap.allocated := by
  unfold modify
  split
  · next other found =>
      cases isThere.symm.trans found
      exact ⟨_, rfl, rfl, rfl⟩
  · next missing => cases isThere.symm.trans missing

theorem delete_ok (isThere : heap.content address = some stored) :
    ∃ heap', heap.delete dead address = .ok heap' ∧
      heap'.content = Function.update heap.content address none ∧
      heap'.allocated = heap.allocated :=
  ⟨_, dif_pos (Option.isSome_of_eq_some isThere), rfl, rfl⟩

/-- Every node that was created is alive, or it was deleted once. -/
theorem count_freed (heap : NodeHeap β) (address : Nat) (created : address < heap.allocated) :
    heap.freed.count address = if (heap.content address).isSome then 0 else 1 := by
  split
  · next isAlive => exact List.count_eq_zero.mpr ((heap.alive address).mp isAlive).2
  · next isDead =>
      rw [heap.alive] at isDead
      exact List.count_eq_one_of_mem heap.once (not_not.mp fun absent => isDead ⟨created, absent⟩)

/-- The nodes that are alive are not more than those that were created. -/
theorem length_le {addresses : List Nat} (distinct : addresses.Nodup)
    (areAlive : ∀ address ∈ addresses, (heap.content address).isSome) :
    addresses.length ≤ heap.allocated := by
  have within : addresses ⊆ List.range heap.allocated := by
    intro address member
    exact List.mem_range.mpr ((heap.alive address).mp (areAlive address member)).1
  have bound := (List.subperm_of_subset distinct within).length_le
  rwa [List.length_range] at bound

end NodeHeap

end Foundation
