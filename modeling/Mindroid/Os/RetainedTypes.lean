import Mindroid.Os.BundleValues
import Mindroid.Util.CollectionIterators

/-!
# Basic types of bundles

`retainBasicTypes` is to keep the bundles in a bundle and to go on in them.  Bundles are put as
objects, and are removed like these.
-/

set_option autoImplicit false

namespace Mindroid

open Foundation

namespace Bundle

open Mindroid.String (Buffer)

section Bundles

variable [ObjectType Variant]

/-- Why `retainBasicTypes` may stop. -/
inductive RetainFault where
  | nullPointer
  | castVariant
  | iterator (fault : Fault)

/-- The body of the loop decides whether `itr.remove()` is called.  In the branch for bundles the
variant itself is cast to a bundle, which it is not. -/
def removesEntry (entry : Buffer × Option Variant) : Except RetainFault Bool :=
  match entry.2 with
  | none => .error .nullPointer
  | some value =>
      if value.isBasicType then
        .ok false
      else if value.isBundle then
        .error .castVariant
      else
        .ok true

def retainBasicTypes (bundles : Bundles) (bundle : Identity) : Except RetainFault Bundles :=
  match bundles bundle with
  | none => .ok bundles
  | some mMap =>
      (Iterator.sweep (HashMap.positions (.iterator .deadNode)) HashMap.entries
          (.iterator .outOfFuel) (fun _ => removesEntry) mMap).map
        fun result => Function.update bundles bundle (some result.1)

/-! ## What it is for -/

/-- The bundles in a bundle, to any depth. -/
inductive Nested (last : Identity → KeySeen → Option Variant) (bundle : Identity) :
    Identity → Prop where
  | itself : Nested last bundle bundle
  | inside {outer inner : Identity} {key : Buffer} (nested : Nested last bundle outer)
      (holds : last outer (some key.key) = some ⟨.bundle, some inner⟩) :
      Nested last bundle inner

/-- The values of a basic type, and bundles. -/
def Variant.isRetained (value : Variant) : Bool :=
  value.isBasicType || value.isBundle

/-- A bundle and all bundles in it keep exactly these values, and other bundles all. -/
structure Retained (bundle : Identity) (before after : Identity → KeySeen → Option Variant) :
    Prop where
  nested : ∀ inner, Nested before bundle inner → ∀ key : Buffer,
    after inner (some key.key) = (before inner (some key.key)).filter Variant.isRetained
  others : ∀ other, ¬Nested before bundle other → after other = before other

/-- Bundles, and the operations that led to them. -/
structure Reached where
  operations : List Operation
  bundles : Bundles
  runs : runAll step (fun _ => none) operations = some bundles

def Reached.ledger (reached : Reached) : Ledger :=
  Ledger.after reached.operations

theorem Reached.represents (reached : Reached) : Represents reached.bundles reached.ledger :=
  (represents_of_run reached.runs).2

/-- `retainBasicTypes` leaves what is to be retained. -/
def RetainsBasicTypes (reached : Reached) (bundle : Identity) : Prop :=
  ∃ bundles last, retainBasicTypes reached.bundles bundle = .ok bundles ∧
    Retained bundle reached.ledger.last last ∧
    Represents bundles ⟨reached.ledger.present, last⟩

/-! ## What it does -/

omit [ObjectType Variant] in
theorem stored_basic (value : Variant) : (stored value).isBasicType = value.isBasicType := by
  rcases value with ⟨type, value⟩
  cases type <;> rfl

omit [ObjectType Variant] in
theorem stored_notBundle (value : Variant) : (stored value).isBundle = false := by
  rcases value with ⟨type, value⟩
  cases type <;> rfl

/-- An entry of a table holds the last value. -/
theorem entry_eq {mMap : Table} {last : KeySeen → Option Variant}
    (holds : ∀ key : Buffer,
      mMap.find key = (last (some key.key)).map fun value => some (stored value))
    {entry : Buffer × Option Variant} (member : entry ∈ mMap.entries) :
    ∃ value, last (some entry.1.key) = some value ∧ entry.2 = some (stored value) := by
  have found : mMap.find entry.1 = some entry.2 :=
    KeyedList.find_of_mem Buffer.key_same mMap.apart member
  rw [holds] at found
  obtain ⟨value, isLast, same⟩ := Option.map_eq_some_iff.mp found
  exact ⟨value, isLast, same.symm⟩

/-- Only values of a basic type are left in the bundle. -/
theorem retain_represents {bundles : Bundles} {ledger : Ledger} (bundle : Identity)
    (represents : Represents bundles ledger) :
    ∃ after, retainBasicTypes bundles bundle = .ok after ∧
      Represents after (ledger.write bundle fun key =>
        (ledger.last bundle key).filter Variant.isBasicType) := by
  have here := represents bundle
  rw [retainBasicTypes]
  cases table : bundles bundle with
  | none =>
      rw [table] at here
      have kept : Function.update bundles bundle none = bundles := by
        rw [← table, Function.update_eq_self]
      have written := @Represents.write _ _ _ bundle represents none
        (fun key => (ledger.last bundle key).filter Variant.isBasicType)
        ⟨here.1, fun key => congrArg (Option.filter _) (here.2 key)⟩
      rw [kept] at written
      exact ⟨bundles, rfl, written⟩
  | some mMap =>
      rw [table] at here
      obtain ⟨present, holds⟩ := here
      have chooses : ∀ (_ : List (Buffer × Option Variant)), ∀ entry ∈ mMap.entries,
          removesEntry entry = .ok !entry.2.any Variant.isBasicType := by
        intro _ entry member
        obtain ⟨value, -, isStored⟩ := entry_eq holds member
        rw [removesEntry, isStored]
        change (if (stored value).isBasicType then _ else if (stored value).isBundle then _ else _) =
          Except.ok !(stored value).isBasicType
        rw [stored_notBundle]
        cases (stored value).isBasicType <;> rfl
      obtain ⟨result, sweeps, swept⟩ :=
        Iterator.sweep_sweeps (HashMap.positions_lawful _) (.iterator .outOfFuel) chooses
      refine ⟨Function.update bundles bundle (some result.1), ?_,
        represents.change present fun key => ?_⟩
      · exact congrArg (Except.map _) sweeps
      · have left := swept.leaves_filter
        simp only [Bool.not_not] at left
        have found := KeyedList.find_filter Buffer.key_same mMap.apart
          (fun value : Option Variant => value.any Variant.isBasicType) key
        rw [← left] at found
        refine found.trans ?_
        change (mMap.find key).filter _ = _
        rw [holds]
        cases ledger.last bundle (some key.key) with
        | none => rfl
        | some value =>
            change (if (stored value).isBasicType then some (some (stored value)) else none) =
              (if value.isBasicType then some value else none).map _
            rw [stored_basic]
            cases value.isBasicType <;> rfl

/-- A bundle that keeps what is to be retained holds no bundles. -/
theorem RetainsBasicTypes.noBundle {reached : Reached} {bundle : Identity}
    (retains : RetainsBasicTypes reached bundle) (key : Buffer) (value : Option Identity) :
    reached.ledger.last bundle (some key.key) ≠ some ⟨.bundle, value⟩ := by
  intro isBundle
  obtain ⟨bundles, last, returns, retained, represents⟩ := retains
  obtain ⟨after, returned, left⟩ := retain_represents bundle reached.represents
  cases returned.symm.trans returns
  -- The bundle was to be retained, and is not among the values of a basic type.
  have expected := retained.nested bundle .itself key
  have same := (left bundle).agree (represents bundle) key
  rw [Ledger.last_write] at same
  change _ = (last bundle (some key.key)).map stored at same
  rw [expected] at same
  have removed : (reached.ledger.last bundle (some key.key)).filter Variant.isBasicType = none := by
    rw [isBundle]
    rfl
  change ((reached.ledger.last bundle (some key.key)).filter Variant.isBasicType).map stored =
    _ at same
  rw [removed, isBundle] at same
  cases same

omit [ObjectType Variant] in
/-- Without bundles there is only the bundle itself. -/
theorem Nested.eq_itself {last : Identity → KeySeen → Option Variant} {bundle inner : Identity}
    (noBundle : ∀ (key : Buffer) (value : Option Identity),
      last bundle (some key.key) ≠ some ⟨.bundle, value⟩)
    (nested : Nested last bundle inner) : inner = bundle := by
  induction nested with
  | itself => rfl
  | inside _ holds ih =>
      rw [ih] at holds
      exact absurd holds (noBundle _ _)

/-- Exactly the basic types and the bundles in a bundle are retained, if and only if no value that
was put last is a bundle. -/
theorem retainsBasicTypes_iff (reached : Reached) (bundle : Identity) :
    RetainsBasicTypes reached bundle ↔ ∀ (key : Buffer) (value : Option Identity),
      reached.ledger.last bundle (some key.key) ≠ some ⟨.bundle, value⟩ := by
  constructor
  · exact RetainsBasicTypes.noBundle
  · intro noBundle
    obtain ⟨after, returns, represents⟩ := retain_represents bundle reached.represents
    refine ⟨after, (reached.ledger.write bundle _).last, returns, ⟨?_, ?_⟩, represents⟩
    · intro inner nested key
      cases nested.eq_itself noBundle
      rw [Ledger.last_write]
      cases isLast : reached.ledger.last bundle (some key.key) with
      | none => rfl
      | some value =>
          have notBundle : value.isBundle = false := by
            rcases value with ⟨type, value⟩
            cases type with
            | bundle => exact absurd isLast (noBundle key value)
            | _ => rfl
          rw [Option.filter_some, Option.filter_some, Variant.isRetained, notBundle, Bool.or_false]
    · intro other outside
      apply Function.update_of_ne
      rintro rfl
      exact outside .itself

end Bundles

/-- A bundle with a number is removed from the bundle that it was put into. -/
theorem nested_bundle_removed :
    let _ : ObjectType Variant := uncompared
    let inner : Identity := ⟨0⟩
    let outer : Identity := ⟨1⟩
    let key := Key.pointer (some [97])
    ∃ reached : Reached,
      reached.operations = [.new inner, .put inner key (.int 1), .new outer,
        .put outer key (.bundle (some inner))] ∧
      (∃ after, retainBasicTypes reached.bundles outer = .ok after ∧
        (after outer).map HashMap.isEmpty = some true) ∧
      ¬RetainsBasicTypes reached outer := by
  intro _ inner outer key
  let reached : Reached := {
    operations := [.new inner, .put inner key (.int 1), .new outer,
      .put outer key (.bundle (some inner))]
    bundles := _
    runs := rfl }
  refine ⟨reached, rfl, ⟨_, rfl, rfl⟩, fun retains => ?_⟩
  exact retains.noBundle ⟨some [97]⟩ (some inner) rfl

end Bundle

end Mindroid
