import Mathlib.Logic.Basic

/-!
# Optionals

`Optional::equals` compares the value of an optional with the object that it is given, and not with
the value of that object.
-/

set_option autoImplicit false

namespace Mindroid

/-- Objects by their identity: the empty optional of a class `T`, the optionals that `of` has made
with their values, and all others. -/
inductive Obj (E : Type) where
  | other (object : E)
  | empty
  | of (id : Nat) (value : Obj E)
  deriving DecidableEq

/-- The class `T` of the values: what it tells of the other objects, and whether it is `Object`,
which is the only other class that `Optional<T>` is derived from. -/
structure ElementType (E : Type) where
  isInstance : E → Bool
  isObject : Bool
  equals : E → Option (Obj E) → Bool
  hashCode : E → UInt64

namespace Obj

variable {E : Type}

/-- `Class<T>::isInstance` of an object. -/
def isInstance (type : ElementType E) : Obj E → Bool
  | other object => type.isInstance object
  | empty => type.isObject
  | of _ _ => type.isObject

end Obj

namespace Optional

variable {E : Type} [DecidableEq E]

/-- `Optional::equals`, with the `equals` of the value. -/
def equalsWith (type : ElementType E) (mValue : Option (Obj E)) (valueEquals : Option (Obj E) → Bool)
    (obj : Option (Obj E)) : Bool :=
  if obj = mValue then
    true
  else if mValue ≠ none then
    match obj with
    | some object => if object.isInstance type then valueEquals (some object) else false
    | none => false
  else
    false

end Optional

namespace Obj

variable {E : Type} [DecidableEq E] (type : ElementType E)

/-- The virtual `equals` of an object. -/
def equals : Obj E → Option (Obj E) → Bool
  | other object, obj => type.equals object obj
  | empty, obj => Optional.equalsWith type none (fun _ => false) obj
  | of _ value, obj => Optional.equalsWith type (some value) (fun obj => equals value obj) obj

/-- The virtual `hashCode` of an object. -/
def hashCode : Obj E → UInt64
  | other object => type.hashCode object
  | empty => 0
  | of _ value => hashCode value

end Obj

/-- The `equals` of the instances of a class is an equivalence that is consistent with their
`hashCode`. -/
structure ElementType.Lawful {E : Type} [DecidableEq E] (type : ElementType E) : Prop where
  equivalence : Equivalence fun left right : { object : Obj E // object.isInstance type = true } =>
    left.val.equals type (some right.val) = true
  hashCode : ∀ left right : Obj E, left.isInstance type = true → right.isInstance type = true →
    left.equals type (some right) = true → left.hashCode type = right.hashCode type

/-- An optional, whose value is an instance of the class. -/
inductive Optional {E : Type} (type : ElementType E) where
  | empty
  | of (id : Nat) (value : Obj E) (isInstance : value.isInstance type = true)

namespace Optional

variable {E : Type} {type : ElementType E}

def mValue : Optional type → Option (Obj E)
  | empty => none
  | of _ value _ => some value

/-- The optional as an object. -/
def toObj : Optional type → Obj E
  | empty => .empty
  | of id value _ => .of id value

variable [DecidableEq E]

def equals (optional : Optional type) (obj : Option (Obj E)) : Bool :=
  optional.toObj.equals type obj

def hashCode (optional : Optional type) : UInt64 :=
  optional.toObj.hashCode type

/-- Both are empty, or both have values that are equal. -/
def SameValue (first second : Optional type) : Prop :=
  first.mValue = none ∧ second.mValue = none ∨
    ∃ value other, first.mValue = some value ∧ second.mValue = some other ∧
      value.equals type (some other) = true

/-- What is expected of the `equals` and `hashCode` of optionals. -/
structure Laws (first second third : Optional type) : Prop where
  reflexive : first.equals (some first.toObj) = true
  symmetric : first.equals (some second.toObj) = true → second.equals (some first.toObj) = true
  transitive : first.equals (some second.toObj) = true → second.equals (some third.toObj) = true →
    first.equals (some third.toObj) = true
  value : first.equals (some second.toObj) = true ↔ first.SameValue second
  hashCode : first.equals (some second.toObj) = true → first.hashCode = second.hashCode

/-! ## What is compared -/

/-- The empty optional is not equal to itself. -/
theorem empty_equals (object : Obj E) : Obj.empty.equals type (some object) = false := by
  rw [Obj.equals, equalsWith, if_neg (Option.some_ne_none object), if_neg fun some => some rfl]

/-- An optional is equal to the instances of the class that its value is equal to. -/
theorem equals_iff (lawful : type.Lawful) (optional : Optional type) (object : Obj E) :
    optional.equals (some object) = true ↔ object.isInstance type = true ∧
      ∃ value, optional.mValue = some value ∧ value.equals type (some object) = true := by
  cases optional with
  | empty =>
      refine iff_of_false ?_ ?_
      · rw [equals, toObj, empty_equals]
        exact Bool.false_ne_true
      · rintro ⟨_, value, isValue, _⟩
        cases isValue
  | of id value isInstance =>
      have reflexive : value.equals type (some value) = true :=
        lawful.equivalence.refl ⟨value, isInstance⟩
      have unfolded : (of id value isInstance : Optional type).equals (some object) =
          if object = value then true
          else if object.isInstance type then value.equals type (some object) else false := by
        rw [equals, toObj, Obj.equals, equalsWith]
        simp
      rw [unfolded]
      split
      case isTrue same =>
        subst same
        exact iff_of_true rfl ⟨isInstance, object, rfl, reflexive⟩
      case isFalse =>
        split
        case isTrue instance_ =>
          constructor
          · exact fun equal => ⟨instance_, value, rfl, equal⟩
          · rintro ⟨_, other, isOther, equal⟩
            cases isOther
            exact equal
        case isFalse notInstance =>
          exact iff_of_false Bool.false_ne_true fun both => notInstance both.1

/-- `equals` is no equivalence of all objects, because of the empty optional. -/
theorem not_isObject (lawful : type.Lawful) : type.isObject = false := by
  cases isObject : type.isObject with
  | false => rfl
  | true =>
      have reflexive : Obj.empty.equals type (some Obj.empty) = true :=
        lawful.equivalence.refl ⟨.empty, isObject⟩
      cases (empty_equals Obj.empty).symm.trans reflexive

theorem isInstance_toObj (lawful : type.Lawful) (optional : Optional type) :
    optional.toObj.isInstance type = false := by
  cases optional with
  | empty => exact not_isObject lawful
  | of => exact not_isObject lawful

/-- No optional is equal to an optional. -/
theorem equals_toObj (lawful : type.Lawful) (first second : Optional type) :
    first.equals (some second.toObj) = false := by
  rw [← Bool.not_eq_true, equals_iff lawful, isInstance_toObj lawful]
  exact fun both => Bool.false_ne_true both.1

/-- Whatever the values are, an optional is not equal to itself. -/
theorem never_laws (lawful : type.Lawful) (first second third : Optional type) :
    ¬Laws first second third := by
  intro laws
  exact Bool.false_ne_true ((equals_toObj lawful first first).symm.trans laws.reflexive)

/-- Two objects that are equal to themselves only. -/
def twoObjects : ElementType Bool where
  isInstance := fun _ => true
  isObject := false
  equals := fun object obj => decide (obj = some (.other object))
  hashCode := fun object => if object then 1 else 2

theorem twoObjects_lawful : twoObjects.Lawful := by
  have same : ∀ left right : Obj Bool, left.isInstance twoObjects = true →
      (left.equals twoObjects (some right) = true ↔ left = right) := by
    intro left right isInstance
    cases left with
    | other object => simp [Obj.equals, twoObjects, eq_comm]
    | empty => cases isInstance
    | of => cases isInstance
  constructor
  · constructor
    · exact fun object => (same _ _ object.property).mpr rfl
    · intro left right equal
      exact (same _ _ right.property).mpr ((same _ _ left.property).mp equal).symm
    · intro left right third equal otherEqual
      rw [same _ _ left.property] at equal ⊢
      rw [same _ _ right.property] at otherEqual
      exact equal.trans otherEqual
  · intro left right isInstance _ equal
    rw [(same left right isInstance).mp equal]

theorem never_laws_twoObjects :
    ¬Laws (of 0 (.other true) rfl : Optional twoObjects) (of 1 (.other true) rfl) empty :=
  never_laws twoObjects_lawful _ _ _

/-- Two optionals of one object. -/
theorem not_equal_to_itself :
    ¬Laws (of 0 (.other true) rfl : Optional twoObjects) (of 1 (.other true) rfl) empty := by
  intro laws
  have other : (of 0 (.other true) rfl : Optional twoObjects).equals
      (some (of 0 (.other true) rfl : Optional twoObjects).toObj) = false := rfl
  exact Bool.false_ne_true (other.symm.trans laws.reflexive)

end Optional

end Mindroid
