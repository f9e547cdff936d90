import Mathlib.Data.Finset.Basic

/-!
# Reference counted objects

An object is kept alive by `sp` and `wp` references that count themselves in its `mReference`.
Everything here is about one object on the heap that has no destroyer, and about the references to
it.  An access to what was deleted is a failure, and so is an assertion that does not hold.
-/

set_option autoImplicit false

namespace Mindroid

namespace Object

/-- The strong counter before the first strong reference is counted, `1 << 28`. -/
def INITIAL_STRONG_REFERENCE_VALUE : Int32 :=
  268435456

def OBJECT_LIFETIME_STRONG_REFERENCE : Int32 :=
  0x0000

def OBJECT_LIFETIME_WEAK_REFERENCE : Int32 :=
  0x0001

def OBJECT_LIFETIME_MASK : Int32 :=
  0x0001

/-- The `mReference` of an object.  How often the object was destroyed and its `mReference` was
freed is counted as well. -/
structure WeakReferenceImpl where
  mStrongReferenceCounter : Int32
  mWeakReferenceCounter : Int32
  mFlags : Int32
  destroyed : Nat
  freed : Nat
  deriving DecidableEq

inductive Failure where
  | assertion (message : String)
  | deleted
  deriving DecidableEq

namespace WeakReferenceImpl

/-- The `mReference` of a new object. -/
def new : WeakReferenceImpl where
  mStrongReferenceCounter := INITIAL_STRONG_REFERENCE_VALUE
  mWeakReferenceCounter := 0
  mFlags := 0
  destroyed := 0
  freed := 0

/-- What is in `mReference` can be accessed before it is freed. -/
def access (reference : WeakReferenceImpl) : Except Failure WeakReferenceImpl :=
  if reference.freed = 0 then .ok reference else .error .deleted

/-- An object leads to its `mReference` before it is destroyed. -/
def mReference (reference : WeakReferenceImpl) : Except Failure WeakReferenceImpl :=
  if reference.destroyed = 0 then reference.access else .error .deleted

/-- `ASSERT`. -/
def assert (condition : Bool) (message : String) : Except Failure Unit :=
  if condition then .ok () else .error (.assertion message)

/-- Whether the object lives as long as there are strong references. -/
def isStrong (reference : WeakReferenceImpl) : Bool :=
  reference.mFlags &&& OBJECT_LIFETIME_MASK == OBJECT_LIFETIME_STRONG_REFERENCE

/-- `delete mReference`. -/
def free (reference : WeakReferenceImpl) : WeakReferenceImpl :=
  { reference with freed := reference.freed + 1 }

/-- `~Object`. -/
def destroy (object : WeakReferenceImpl) : Except Failure WeakReferenceImpl := do
  let reference ← object.mReference
  let reference := { reference with destroyed := reference.destroyed + 1 }
  if reference.mFlags &&& OBJECT_LIFETIME_MASK == OBJECT_LIFETIME_WEAK_REFERENCE then
    if reference.mWeakReferenceCounter == 0 then
      return reference.free
    else
      return reference
  else if reference.mStrongReferenceCounter == INITIAL_STRONG_REFERENCE_VALUE then
    return reference.free
  else
    return reference

def incWeakReference (reference : WeakReferenceImpl) : Except Failure WeakReferenceImpl := do
  let reference ← reference.access
  let oldWeakReferenceCount := reference.mWeakReferenceCounter
  assert (0 ≤ oldWeakReferenceCount)
    "Object::WeakReference::incWeakReference() called on %p after underflow"
  return { reference with mWeakReferenceCounter := oldWeakReferenceCount + 1 }

def decWeakReference (reference : WeakReferenceImpl) : Except Failure WeakReferenceImpl := do
  let reference ← reference.access
  let oldWeakReferenceCount := reference.mWeakReferenceCounter
  let reference := { reference with mWeakReferenceCounter := oldWeakReferenceCount - 1 }
  assert (1 ≤ oldWeakReferenceCount)
    "Object::WeakReference::decWeakReference() called on %p too many times"
  if oldWeakReferenceCount ≠ 1 then
    return reference
  else if reference.isStrong then
    if reference.mStrongReferenceCounter == INITIAL_STRONG_REFERENCE_VALUE then
      reference.destroy
    else
      return reference.free
  else
    reference.destroy

def incStrongReference (object : WeakReferenceImpl) : Except Failure WeakReferenceImpl := do
  let reference ← object.mReference
  let reference ← reference.incWeakReference
  let oldStrongReferenceCount := reference.mStrongReferenceCounter
  let reference := { reference with mStrongReferenceCounter := oldStrongReferenceCount + 1 }
  assert (0 < oldStrongReferenceCount)
    "Object::incStrongReference() called on %p after underflow"
  if oldStrongReferenceCount ≠ INITIAL_STRONG_REFERENCE_VALUE then
    return reference
  else
    return { reference with
      mStrongReferenceCounter :=
        reference.mStrongReferenceCounter - INITIAL_STRONG_REFERENCE_VALUE }

def decStrongReference (object : WeakReferenceImpl) : Except Failure WeakReferenceImpl := do
  let reference ← object.mReference
  let oldStrongReferenceCount := reference.mStrongReferenceCounter
  let reference := { reference with mStrongReferenceCounter := oldStrongReferenceCount - 1 }
  assert (1 ≤ oldStrongReferenceCount)
    "Object::decStrongReference() called on %p too many times"
  let reference ←
    if oldStrongReferenceCount == 1 && reference.isStrong then reference.destroy
    else .ok reference
  reference.decWeakReference

/-- In a sequence of operations every `compare_exchange_weak` ends with the exchange. -/
def setObjectLifetime (object : WeakReferenceImpl) (mode : Int32) :
    Except Failure WeakReferenceImpl := do
  let reference ← object.mReference
  if mode == OBJECT_LIFETIME_WEAK_REFERENCE then
    return { reference with mFlags := reference.mFlags ||| mode }
  else if mode == OBJECT_LIFETIME_STRONG_REFERENCE &&
      reference.mFlags &&& OBJECT_LIFETIME_MASK == OBJECT_LIFETIME_WEAK_REFERENCE then
    assert (0 ≤ reference.mStrongReferenceCounter)
      "Object::setObjectLifetime() called on %p in illegal state"
    return { reference with
      mStrongReferenceCounter :=
        if reference.mStrongReferenceCounter == 0 then INITIAL_STRONG_REFERENCE_VALUE
        else reference.mStrongReferenceCounter
      mFlags := reference.mFlags &&& mode }
  else
    return reference

def tryIncStrongReference (reference : WeakReferenceImpl) :
    Except Failure (Bool × WeakReferenceImpl) := do
  let reference ← reference.incWeakReference
  let strongReferenceCount := reference.mStrongReferenceCounter
  assert (0 ≤ strongReferenceCount)
    "Object::WeakReference::tryIncStrongReference() called on %p after underflow"
  let incremented := { reference with mStrongReferenceCounter := strongReferenceCount + 1 }
  if 0 < strongReferenceCount ∧ strongReferenceCount ≠ INITIAL_STRONG_REFERENCE_VALUE then
    return (true, incremented)
  else if reference.isStrong && strongReferenceCount ≤ 0 then
    let reference ← reference.decWeakReference
    return (false, reference)
  else if strongReferenceCount == INITIAL_STRONG_REFERENCE_VALUE then
    return (true, { incremented with
      mStrongReferenceCounter :=
        incremented.mStrongReferenceCounter - INITIAL_STRONG_REFERENCE_VALUE })
  else
    return (true, incremented)

end WeakReferenceImpl

/-! ## References -/

/-- An object with the variables of type `sp` and `wp` that refer to it.  The others are null. -/
structure References where
  reference : WeakReferenceImpl
  sps : Finset Nat
  wps : Finset Nat

namespace References

def new : References where
  reference := .new
  sps := ∅
  wps := ∅

/-- `decStrongReference` for what a variable refers to, if that is not null. -/
def dropStrong (references : References) (self : Nat) (reference : WeakReferenceImpl) :
    Except Failure WeakReferenceImpl :=
  if self ∈ references.sps then reference.decStrongReference else .ok reference

/-- `decWeakReference` for what a variable refers to, if that is not null. -/
def dropWeak (references : References) (self : Nat) (reference : WeakReferenceImpl) :
    Except Failure WeakReferenceImpl :=
  if self ∈ references.wps then reference.decWeakReference else .ok reference

/-- `sp& operator=` of a pointer to the object or a null pointer.  For a variable that is still null
this is the constructor as well. -/
def assignStrong (references : References) (self : Nat) (other : Bool) :
    Except Failure References := do
  let reference ←
    if other then references.reference.incStrongReference else .ok references.reference
  let reference ← references.dropStrong self reference
  return { references with
    reference := reference
    sps := if other then insert self references.sps else references.sps.erase self }

/-- `~sp` and `sp::clear`. -/
def releaseStrong (references : References) (self : Nat) : Except Failure References := do
  let reference ← references.dropStrong self references.reference
  return { references with reference := reference, sps := references.sps.erase self }

/-- `wp& operator=`, with what counts the new reference if there is one. -/
def assignWeak (references : References) (self : Nat)
    (increment : Option (WeakReferenceImpl → Except Failure WeakReferenceImpl)) :
    Except Failure References := do
  let reference ←
    match increment with
    | none => .ok references.reference
    | some increment => increment references.reference
  let reference ← references.dropWeak self reference
  return { references with
    reference := reference
    wps := if increment.isSome then insert self references.wps
      else references.wps.erase self }

/-- `createWeakReference`. -/
def createWeakReference (object : WeakReferenceImpl) : Except Failure WeakReferenceImpl := do
  let reference ← object.mReference
  reference.incWeakReference

/-- `~wp` and `wp::clear`. -/
def releaseWeak (references : References) (self : Nat) : Except Failure References := do
  let reference ← references.dropWeak self references.reference
  return { references with reference := reference, wps := references.wps.erase self }

/-- The result of `wp::get` is moved to a variable of type `sp`. -/
def get (references : References) (self weak : Nat) : Except Failure References := do
  let (found, reference) ←
    if weak ∈ references.wps then references.reference.tryIncStrongReference
    else .ok (false, references.reference)
  let reference ← references.dropStrong self reference
  return { references with
    reference := reference
    sps := if found then insert self references.sps else references.sps.erase self }

end References

/-- What is done with the variables: an `sp` becomes the raw pointer, a copy of another or null, a
`wp` becomes the raw pointer, a copy of an `sp` or of another `wp` or null, and an `sp` becomes the
result of `wp::get`. -/
inductive Action where
  | strongOfPointer (self : Nat)
  | strongOfStrong (self other : Nat)
  | releaseStrong (self : Nat)
  | weakOfPointer (self : Nat)
  | weakOfStrong (self other : Nat)
  | weakOfWeak (self other : Nat)
  | releaseWeak (self : Nat)
  | get (self weak : Nat)
  | setObjectLifetime (weakMode : Bool)

namespace References

def step (references : References) : Action → Except Failure References
  | .strongOfPointer self => references.assignStrong self true
  | .strongOfStrong self other =>
      references.assignStrong self (decide (other ∈ references.sps))
  | .releaseStrong self => references.releaseStrong self
  | .weakOfPointer self => references.assignWeak self (some createWeakReference)
  | .weakOfStrong self other =>
      references.assignWeak self
        (if other ∈ references.sps then some createWeakReference else none)
  | .weakOfWeak self other =>
      references.assignWeak self
        (if other ∈ references.wps then some WeakReferenceImpl.incWeakReference else none)
  | .releaseWeak self => references.releaseWeak self
  | .get self weak => references.get self weak
  | .setObjectLifetime weakMode => do
      let reference ← references.reference.setObjectLifetime
        (if weakMode then OBJECT_LIFETIME_WEAK_REFERENCE else OBJECT_LIFETIME_STRONG_REFERENCE)
      return { references with reference := reference }

end References

end Object

end Mindroid
