import Mathlib.Data.Finset.Lattice.Basic
import Mindroid.Foundation.KeyedList
import Mindroid.Foundation.Transition

/-!
# Hash sets

A hash set is a table without values.  Its operations are those of a finite set of what the stored
values stand for.
-/

set_option autoImplicit false

namespace Mindroid

open Foundation

/-- The table of a `HashSet`, whose values `same` compares. -/
structure HashSet {α : Type} (same : α → α → Bool) where
  entries : List (α × Unit)
  apart : KeyedList.Apart same entries

namespace HashSet

variable {α γ : Type} {same : α → α → Bool}

/-- `new HashSet()`. -/
def new (same : α → α → Bool) : HashSet same where
  entries := []
  apart := List.Pairwise.nil

def contains (set : HashSet same) (value : α) : Bool :=
  (KeyedList.find same value set.entries).isSome

/-- `mSet.insert(value)`. -/
def insert (set : HashSet same) (value : α) : HashSet same where
  entries := KeyedList.assign same value () set.entries
  apart := set.apart.assign value ()

/-- `mSet.erase(value)`. -/
def erase (set : HashSet same) (value : α) : HashSet same where
  entries := KeyedList.erase same value set.entries
  apart := set.apart.erase value

def add (set : HashSet same) (value : α) : HashSet same × Bool :=
  (set.insert value, !set.contains value)

def addAll (set other : HashSet same) : HashSet same × Bool :=
  (other.entries.foldl (fun set entry => (set.add entry.1).1) set, true)

def clear (_set : HashSet same) : HashSet same :=
  new same

def isEmpty (set : HashSet same) : Bool :=
  set.entries.isEmpty

def remove (set : HashSet same) (value : α) : HashSet same × Bool :=
  (set.erase value, set.contains value)

def size (set : HashSet same) : Nat :=
  set.entries.length

/-- A call of an operation. -/
inductive Operation {α : Type} (same : α → α → Bool) where
  | add (value : α)
  | addAll (other : HashSet same)
  | clear
  | contains (value : α)
  | isEmpty
  | remove (value : α)
  | size

/-- What an operation returns. -/
inductive Returned where
  | nothing
  | flag (flag : Bool)
  | count (count : Nat)

/-- Call an operation. -/
def call (set : HashSet same) : Operation same → HashSet same × Returned
  | .add value => ((set.add value).1, .flag (set.add value).2)
  | .addAll other => ((set.addAll other).1, .flag (set.addAll other).2)
  | .clear => (set.clear, .nothing)
  | .contains value => (set, .flag (set.contains value))
  | .isEmpty => (set, .flag set.isEmpty)
  | .remove value => ((set.remove value).1, .flag (set.remove value).2)
  | .size => (set, .count set.size)

def step (set : HashSet same) (operation : Operation same) : Option (HashSet same) :=
  some (set.call operation).1

/-! ## Finite sets -/

variable {stands : α → γ}

/-- What the values of a hash set stand for. -/
def finite (stands_same : KeyedList.Stands same stands) (set : HashSet same) : Finset γ :=
  (KeyedList.finite stands_same set.entries set.apart).keys

variable [DecidableEq γ]

/-- What an operation returns for a finite set, and the finite set afterwards. -/
def Agrees (stands_same : KeyedList.Stands same stands) (before : Finset γ) :
    Operation same → Returned → Finset γ → Prop
  | .add value, .flag flag, after =>
      (flag = true ↔ stands value ∉ before) ∧ after = Insert.insert (stands value) before
  | .addAll other, .flag flag, after => flag = true ∧ after = before ∪ other.finite stands_same
  | .clear, .nothing, after => after = ∅
  | .contains value, .flag flag, after => (flag = true ↔ stands value ∈ before) ∧ after = before
  | .isEmpty, .flag flag, after => (flag = true ↔ before = ∅) ∧ after = before
  | .remove value, .flag flag, after =>
      (flag = true ↔ stands value ∈ before) ∧ after = before.erase (stands value)
  | .size, .count count, after => count = before.card ∧ after = before
  | _, _, _ => False

/-- The call returns and does what it does for the finite set. -/
def Refines (stands_same : KeyedList.Stands same stands) (before : HashSet same)
    (operation : Operation same) (after : HashSet same) : Prop :=
  ∃ returned, before.call operation = (after, returned) ∧
    Agrees stands_same (before.finite stands_same) operation returned (after.finite stands_same)

variable (stands_same : KeyedList.Stands same stands) (set : HashSet same)

theorem mem_finite_iff (value : α) :
    stands value ∈ set.finite stands_same ↔ set.contains value = true := by
  rw [finite, Finmap.mem_keys, ← Finmap.lookup_isSome,
    KeyedList.lookup_finite stands_same set.apart value, contains]

theorem finite_insert (value : α) :
    (set.insert value).finite stands_same =
      Insert.insert (stands value) (set.finite stands_same) := by
  apply Finset.ext
  intro image
  rw [finite, Finset.mem_insert, Finmap.mem_keys]
  refine Iff.trans (iff_of_eq (congrArg (image ∈ ·)
    (KeyedList.finite_assign stands_same set.apart value ()))) ?_
  rw [Finmap.mem_insert, finite, Finmap.mem_keys]

theorem finite_erase (value : α) :
    (set.erase value).finite stands_same = (set.finite stands_same).erase (stands value) := by
  apply Finset.ext
  intro image
  rw [finite, Finset.mem_erase, Finmap.mem_keys]
  refine Iff.trans (iff_of_eq (congrArg (image ∈ ·)
    (KeyedList.finite_erase stands_same set.apart value))) ?_
  rw [Finmap.mem_erase, finite, Finmap.mem_keys]

omit [DecidableEq γ] in
theorem finite_val :
    (set.finite stands_same).val = ↑(set.entries.map fun entry => stands entry.1) := by
  rw [finite, KeyedList.finite, Finmap.keys_val, AList.keys, KeyedList.keys_sigmas]

omit [DecidableEq γ] in
theorem mem_finite {image : γ} :
    image ∈ set.finite stands_same ↔ ∃ entry ∈ set.entries, stands entry.1 = image := by
  rw [← Finset.mem_val, finite_val, Multiset.mem_coe, List.mem_map]

omit [DecidableEq γ] in
theorem isEmpty_iff : set.isEmpty = true ↔ set.finite stands_same = ∅ := by
  rw [isEmpty, List.isEmpty_iff, ← Finset.val_eq_zero, finite_val, Multiset.coe_eq_zero,
    List.map_eq_nil_iff]

omit [DecidableEq γ] in
theorem size_eq : set.size = (set.finite stands_same).card := by
  rw [Finset.card, finite_val, Multiset.coe_card, List.length_map, size]

theorem addEach_finite (entries : List (α × Unit)) :
    (entries.foldl (fun set entry => (set.add entry.1).1) set).finite stands_same =
      set.finite stands_same ∪ (entries.map fun entry => stands entry.1).toFinset := by
  induction entries generalizing set with
  | nil => exact (Finset.union_empty _).symm
  | cons first rest ih =>
      rw [List.foldl_cons, ih, List.map_cons, List.toFinset_cons, Finset.union_insert,
        ← Finset.insert_union]
      exact congrArg (· ∪ _) (finite_insert stands_same set first.1)

theorem addAll_finite (other : HashSet same) :
    (set.addAll other).1.finite stands_same =
      set.finite stands_same ∪ other.finite stands_same := by
  refine (addEach_finite stands_same set other.entries).trans (congrArg (_ ∪ ·) ?_)
  apply Finset.ext
  intro image
  rw [List.mem_toFinset, mem_finite, List.mem_map]

/-- Every call does what it does for the finite set. -/
theorem call_refines (operation : Operation same) :
    Refines stands_same set operation (set.call operation).1 := by
  refine ⟨(set.call operation).2, rfl, ?_⟩
  cases operation with
  | add value =>
      refine ⟨?_, finite_insert stands_same set value⟩
      rw [mem_finite_iff, Bool.not_eq_true, add, Bool.not_eq_true']
  | addAll other => exact ⟨rfl, addAll_finite stands_same set other⟩
  | clear => exact rfl
  | contains value => exact ⟨(mem_finite_iff stands_same set value).symm, rfl⟩
  | isEmpty => exact ⟨isEmpty_iff stands_same set, rfl⟩
  | remove value =>
      exact ⟨(mem_finite_iff stands_same set value).symm, finite_erase stands_same set value⟩
  | size => exact ⟨size_eq stands_same set, rfl⟩

theorem calls_refine (operations : List (Operation same)) :
    Relates step (Refines stands_same) set operations := by
  induction operations generalizing set with
  | nil => trivial
  | cons operation rest ih =>
      intro next taken
      cases taken
      exact ⟨call_refines stands_same set operation, ih _⟩

end HashSet

end Mindroid
