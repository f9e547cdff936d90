import Mathlib.Data.List.Nodup
import Mathlib.Logic.Function.Basic

/-!
# Objects with members that are references

Objects refer to each other with members of the type `sp`, and there are variables of this type.
The destructor of an object destroys its members, so that the release of a reference can destroy
many objects: those that are kept alive by this reference only.
-/

set_option autoImplicit false

namespace Mindroid

/-- An `sp`: a variable, or a member of an object. -/
inductive Sp where
  | variable (name : Nat)
  | member (object : Nat) (index : Nat)
  deriving DecidableEq

/-- The object that an `sp` is a member of. -/
def Sp.owner : Sp → Option Nat
  | .variable _ => none
  | .member object _ => some object

/-- The counters in the `mReference` of an object to which there has been a reference, and whether
it lives as long as its strong references, as `mFlags` has it. -/
@[ext] structure CountedObject where
  mStrongReferenceCounter : Nat
  mWeakReferenceCounter : Nat
  isStrong : Bool
  destroyed : Bool

/-- All objects, which have no destructors of their own and no destroyers, and what the variables and
the members, in the order of their declaration, refer to. -/
@[ext] structure ObjectHeap where
  sps : List Sp
  mPointer : Sp → Option Nat
  object : Nat → CountedObject

namespace ObjectHeap

inductive Failure where
  | deleted
  | assertion
  | endless
  deriving DecidableEq

/-- Whether the memory of an `sp` is still there. -/
def «exists» (heap : ObjectHeap) (sp : Sp) : Bool :=
  match sp.owner with
  | none => true
  | some object => !(heap.object object).destroyed

def read (heap : ObjectHeap) (sp : Sp) : Except Failure (Option Nat) :=
  if heap.exists sp then .ok (heap.mPointer sp) else .error .deleted

def write (heap : ObjectHeap) (sp : Sp) (pointer : Option Nat) : Except Failure ObjectHeap :=
  if heap.exists sp then
    .ok { heap with mPointer := Function.update heap.mPointer sp pointer }
  else
    .error .deleted

def set (heap : ObjectHeap) (object : Nat) (counted : CountedObject) : ObjectHeap :=
  { heap with object := Function.update heap.object object counted }

def members (heap : ObjectHeap) (object : Nat) : List Sp :=
  heap.sps.filter fun sp => sp.owner == some object

/-- An object leads to its `mReference` before it is destroyed. -/
def access (heap : ObjectHeap) (object : Nat) : Except Failure CountedObject :=
  if (heap.object object).destroyed then .error .deleted else .ok (heap.object object)

/-- A function is called for an object unless the pointer to it is null. -/
def ifSome (call : ObjectHeap → Nat → Except Failure ObjectHeap) (heap : ObjectHeap) :
    Option Nat → Except Failure ObjectHeap
  | none => .ok heap
  | some object => call heap object

/-- The destructor of an `sp`. -/
def destroySp (decStrongReference : ObjectHeap → Nat → Except Failure ObjectHeap)
    (heap : ObjectHeap) (sp : Sp) : Except Failure ObjectHeap :=
  heap.ifSome decStrongReference (heap.mPointer sp)

/-- `delete` of an object: the last member is destroyed first. -/
def delete (decStrongReference : ObjectHeap → Nat → Except Failure ObjectHeap)
    (heap : ObjectHeap) (object : Nat) : Except Failure ObjectHeap :=
  (heap.members object).reverse.foldlM (destroySp decStrongReference)
    (heap.set object { heap.object object with destroyed := true })

/-- `decWeakReference`; nobody uses the `mReference` that the last reference deletes. -/
def decWeakReference (decStrongReference : ObjectHeap → Nat → Except Failure ObjectHeap)
    (heap : ObjectHeap) (object : Nat) : Except Failure ObjectHeap :=
  let reference := heap.object object
  let oldWeakReferenceCount := reference.mWeakReferenceCounter
  if oldWeakReferenceCount < 1 then
    .error .assertion
  else
    let heap := heap.set object
      { reference with mWeakReferenceCounter := oldWeakReferenceCount - 1 }
    if oldWeakReferenceCount ≠ 1 then
      .ok heap
    else if reference.isStrong then
      .ok heap
    else
      delete decStrongReference heap object

/-- `Object::decStrongReference`, with a bound for the depth of the recursion. -/
def decStrong : Nat → ObjectHeap → Nat → Except Failure ObjectHeap
  | 0, _, _ => .error .endless
  | fuel + 1, heap, object => do
      let reference ← heap.access object
      let oldStrongReferenceCount := reference.mStrongReferenceCounter
      if oldStrongReferenceCount < 1 then
        .error .assertion
      else
        let heap := heap.set object
          { reference with mStrongReferenceCounter := oldStrongReferenceCount - 1 }
        let heap ←
          if oldStrongReferenceCount = 1 ∧ reference.isStrong then
            delete (decStrong fuel) heap object
          else
            .ok heap
        decWeakReference (decStrong fuel) heap object

/-- No object is destroyed twice, so that the depth is bounded by the number of members. -/
def decStrongReference (heap : ObjectHeap) (object : Nat) : Except Failure ObjectHeap :=
  decStrong (heap.sps.length + 1) heap object

def incStrongReference (heap : ObjectHeap) (object : Nat) : Except Failure ObjectHeap := do
  let reference ← heap.access object
  if reference.mStrongReferenceCounter < 1 then
    .error .assertion
  else
    return heap.set object
      { reference with
        mStrongReferenceCounter := reference.mStrongReferenceCounter + 1
        mWeakReferenceCounter := reference.mWeakReferenceCounter + 1 }

/-- The counters stay as they are. -/
def moveStrongReference (heap : ObjectHeap) (object : Nat) : Except Failure ObjectHeap := do
  let _ ← heap.access object
  return heap

/-- `sp<T>::operator=(sp<T>&&)`, and the same with `sp<U>&&`.  The exception for a data race is a
message only. -/
def moveAssign (heap : ObjectHeap) (self other : Sp) : Except Failure ObjectHeap := do
  let pointer ← heap.read self
  let heap ← heap.ifSome decStrongReference pointer
  let _ ← heap.read self
  let heap ← heap.write self (← heap.read other)
  let heap ← heap.write other none
  heap.ifSome moveStrongReference (← heap.read self)

/-- `sp<T>::operator=(const sp<T>&)`. -/
def copyAssign (heap : ObjectHeap) (self : Sp) (otherPointer : Option Nat) :
    Except Failure ObjectHeap := do
  let pointer ← heap.read self
  let heap ← heap.ifSome incStrongReference otherPointer
  let heap ← heap.ifSome decStrongReference pointer
  let _ ← heap.read self
  heap.write self otherPointer

def clear (heap : ObjectHeap) (self : Sp) : Except Failure ObjectHeap := do
  match ← heap.read self with
  | none => return heap
  | some pointer =>
      let heap ← heap.write self none
      heap.decStrongReference pointer

/-- `{ sp t = q; q.clear(); p = t; }`. -/
def assignByCopy (heap : ObjectHeap) (p q : Sp) : Except Failure ObjectHeap := do
  let t ← heap.read q
  let heap ← heap.ifSome incStrongReference t
  let heap ← heap.clear q
  let heap ← heap.copyAssign p t
  heap.ifSome decStrongReference t

/-! ## Counting -/

def alive (heap : ObjectHeap) (object : Nat) : Prop :=
  (heap.object object).destroyed = false

/-- Whether there is an `sp` with a reference to an object. -/
def refers (heap : ObjectHeap) (object : Nat) (sp : Sp) : Bool :=
  heap.exists sp && heap.mPointer sp == some object

/-- The number of references to an object. -/
def references (heap : ObjectHeap) (object : Nat) : Nat :=
  heap.sps.countP (heap.refers object)

/-- The number of references to an object without a given one. -/
def otherReferences (heap : ObjectHeap) (p : Sp) (object : Nat) : Nat :=
  heap.sps.countP fun sp => heap.refers object sp && sp != p

/-- The counters are right: there may be strong references elsewhere, and references of the type
`wp`. -/
structure Counted (elsewhere wps : Nat → Nat) (heap : ObjectHeap) : Prop where
  nodup : heap.sps.Nodup
  strong : ∀ x, heap.alive x →
    (heap.object x).mStrongReferenceCounter = heap.references x + elsewhere x
  weak : ∀ x, heap.alive x →
    (heap.object x).mWeakReferenceCounter = (heap.object x).mStrongReferenceCounter + wps x
  targets : ∀ sp ∈ heap.sps, heap.exists sp → ∀ x, heap.mPointer sp = some x → heap.alive x

/-- Whether an object is kept alive by references of the type `wp`. -/
def KeptByWps (wps : Nat → Nat) (heap : ObjectHeap) (object : Nat) : Prop :=
  (heap.object object).isStrong = false ∧ 0 < wps object

/-- All references to the object are this one, or members of objects of which this is true. -/
inductive OnlyKeptBy (elsewhere wps : Nat → Nat) (heap : ObjectHeap) (p : Sp) : Nat → Prop where
  | intro (x : Nat) (nowhere : elsewhere x = 0) (noWps : ¬KeptByWps wps heap x)
      (referred : ∃ sp ∈ heap.sps, heap.refers x sp)
      (members : ∀ sp ∈ heap.sps, heap.refers x sp → sp ≠ p → sp.owner ≠ none)
      (owners : ∀ sp ∈ heap.sps, heap.refers x sp → sp ≠ p →
        ∀ owner, sp.owner = some owner → OnlyKeptBy elsewhere wps heap p owner) :
      OnlyKeptBy elsewhere wps heap p x

/-- An `sp` is a member of an object that only `p` keeps alive. -/
def Lost (elsewhere wps : Nat → Nat) (heap : ObjectHeap) (p sp : Sp) : Prop :=
  ∃ x, sp.owner = some x ∧ OnlyKeptBy elsewhere wps heap p x

section Counting

variable {heap heap' : ObjectHeap} {sp p : Sp} {x y : Nat}

@[simp] theorem object_set_self (heap : ObjectHeap) (x : Nat) (counted : CountedObject) :
    (heap.set x counted).object x = counted :=
  Function.update_self _ _ _

theorem object_set_of_ne (ne : y ≠ x) (counted : CountedObject) :
    (heap.set x counted).object y = heap.object y :=
  Function.update_of_ne ne _ _

theorem exists_iff : heap.exists sp = true ↔ ∀ x, sp.owner = some x → heap.alive x := by
  rw [ObjectHeap.exists]
  cases sp.owner with
  | none => exact iff_of_true rfl fun _ isOwner => by cases isOwner
  | some owner =>
      simp only [Bool.not_eq_true']
      constructor
      · rintro isAlive x isOwner
        cases isOwner
        exact isAlive
      · exact fun owned => owned owner rfl

theorem refers_iff :
    heap.refers x sp = true ↔ heap.exists sp = true ∧ heap.mPointer sp = some x := by
  rw [refers, Bool.and_eq_true, beq_iff_eq]

/-- One element of a list without repetitions is counted at most once. -/
theorem countP_other {list : List Sp} (nodup : list.Nodup) (member : p ∈ list)
    (holds : Sp → Bool) :
    list.countP holds =
      (list.countP fun sp => holds sp && sp != p) + if holds p then 1 else 0 := by
  rw [List.countP_eq_countP_filter_add list holds (· != p), List.countP_filter]
  congr 1
  have only : (list.filter fun sp => !(sp != p)) = [p] := by
    have same : (list.filter fun sp => !(sp != p)) = list.filter (· == p) := by
      congr 1
      funext sp
      exact Bool.not_not _
    rw [same, List.filter_beq, List.count_eq_one_of_mem nodup member]
    rfl
  rw [only, List.countP_singleton]

theorem references_eq (nodup : heap.sps.Nodup) (member : p ∈ heap.sps) (x : Nat) :
    heap.references x = heap.otherReferences p x + if heap.refers x p then 1 else 0 :=
  countP_other nodup member _

/-- There is a reference unless there are none to be counted. -/
theorem otherReferences_eq_zero_iff : heap.otherReferences p x = 0 ↔
    ∀ sp ∈ heap.sps, heap.refers x sp = true → sp = p := by
  rw [otherReferences, List.countP_eq_zero]
  refine forall_congr' fun sp => forall_congr' fun _ => ?_
  rw [Bool.and_eq_true, not_and, bne_iff_ne, ne_eq, not_not]

/-- What the members of an object refer to, in the order of their destructors. -/
def targetsOf (heap : ObjectHeap) (p : Sp) (object : Nat) : List Nat :=
  ((heap.members object).reverse.filter (· != p)).filterMap heap.mPointer

theorem count_targetsOf (heap : ObjectHeap) (p : Sp) (y x : Nat) :
    (heap.targetsOf p y).count x = heap.sps.countP fun sp =>
      heap.mPointer sp == some x && sp != p && sp.owner == some y := by
  rw [targetsOf, List.count_filterMap, List.countP_filter, List.countP_reverse, members,
    List.countP_filter]

/-- The references of an object that is destroyed are no longer there. -/
theorem otherReferences_destroyed (sps : heap'.sps = heap.sps)
    (pointers : heap'.mPointer = heap.mPointer) (isAlive : heap.alive y)
    (remain : ∀ sp, heap'.exists sp = (heap.exists sp && sp.owner != some y)) (x : Nat) :
    heap.otherReferences p x =
      heap'.otherReferences p x + (heap.targetsOf p y).count x := by
  rw [count_targetsOf, otherReferences, otherReferences, sps,
    List.countP_eq_countP_filter_add heap.sps _ fun sp => sp.owner != some y, List.countP_filter,
    List.countP_filter]
  congr 1
  · refine List.countP_congr fun sp _ => ?_
    rw [refers, refers, pointers, remain]
    simp only [Bool.and_eq_true]
    tauto
  · refine List.countP_congr fun sp _ => ?_
    rw [refers]
    simp only [bne, Bool.not_not, Bool.and_eq_true, beq_iff_eq]
    constructor
    · rintro ⟨⟨⟨_, pointer⟩, other⟩, isOwner⟩
      exact ⟨⟨pointer, other⟩, isOwner⟩
    · rintro ⟨⟨pointer, other⟩, isOwner⟩
      refine ⟨⟨⟨exists_iff.mpr fun z isOwner' => ?_, pointer⟩, other⟩, isOwner⟩
      cases isOwner.symm.trans isOwner'
      exact isAlive

end Counting

end ObjectHeap

end Mindroid
