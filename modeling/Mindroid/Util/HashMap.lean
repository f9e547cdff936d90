import Mindroid.Foundation.KeyedList
import Mindroid.Foundation.Transition

/-!
# Hash maps

`HashMap` is written four times, for keys and values that are objects or not.  The entries of the
hash table are a list here, whose order means nothing.  Maps of plain values read through the
`operator[]` of the hash table, which adds an entry for a key that is not there.
-/

set_option autoImplicit false

namespace Mindroid

open Foundation

/-- A class derived from `mindroid::Object`. -/
class ObjectType (α : Type) where
  equals : α → α → Bool
  hashCode : α → UInt64

/-- `equals` is an equivalence that `hashCode` respects. -/
class ConsistentObject (α : Type) [ObjectType α] : Prop where
  equivalence : Equivalence fun left right : α => ObjectType.equals left right = true
  hashCode : ∀ left right : α, ObjectType.equals left right = true →
    ObjectType.hashCode left = ObjectType.hashCode right

/-- The hash table finds keys with the same hash code that are equal. -/
def HashMap.sameKey {α : Type} (hashCode : α → UInt64) (equals : α → α → Bool)
    (left right : α) : Bool :=
  hashCode left == hashCode right && equals left right

namespace ObjectType

/-- `equals` of two pointers. -/
def equalPointers {α : Type} [ObjectType α] : Option α → Option α → Bool
  | some left, some right => equals left right
  | none, none => true
  | _, _ => false

end ObjectType

/-- An object with `Object::equals` and `Object::hashCode`. -/
structure Identity where
  address : UInt64
  deriving DecidableEq

instance : ObjectType Identity where
  equals := fun left right => left.address == right.address
  hashCode := Identity.address

instance : ConsistentObject Identity where
  equivalence :=
    ⟨fun _ => beq_self_eq_true _, fun equal => beq_iff_eq.mpr (beq_iff_eq.mp equal).symm,
      fun first second => beq_iff_eq.mpr ((beq_iff_eq.mp first).trans (beq_iff_eq.mp second))⟩
  hashCode := fun _ _ => beq_iff_eq.mp

/-- What the four specialisations of `HashMap` differ in. -/
structure HashMap.Kind (κ α ν : Type) where
  /-- The key behind a pointer.  Null has no hash code. -/
  deref : κ → Option α
  same : α → α → Bool
  /-- The value of the type `V()`. -/
  default : ν
  isNull : ν → Bool
  sameValue : ν → ν → Bool
  /-- Reads use `operator[]`. -/
  inserts : Bool

/-- The table of a `HashMap`.  No two entries have the same key. -/
structure HashMap {κ α ν : Type} (kind : HashMap.Kind κ α ν) where
  entries : List (α × ν)
  apart : KeyedList.Apart kind.same entries

namespace HashMap

/-- `HashMap<K, V>`. -/
def plainPlain (K V : Type) [Hashable K] [BEq K] [BEq V] [Inhabited V] : Kind K K V where
  deref := some
  same := sameKey hash (· == ·)
  default := default
  isNull := fun _ => false
  sameValue := (· == ·)
  inserts := true

/-- `HashMap<K, sp<V>>`. -/
def plainObject (K V : Type) [Hashable K] [BEq K] [ObjectType V] : Kind K K (Option V) where
  deref := some
  same := sameKey hash (· == ·)
  default := none
  isNull := Option.isNone
  sameValue := ObjectType.equalPointers
  inserts := false

/-- `HashMap<sp<K>, V>`. -/
def objectPlain (K V : Type) [ObjectType K] [BEq V] [Inhabited V] : Kind (Option K) K V where
  deref := id
  same := sameKey ObjectType.hashCode ObjectType.equals
  default := default
  isNull := fun _ => false
  sameValue := (· == ·)
  inserts := true

/-- `HashMap<sp<K>, sp<V>>`. -/
def objectObject (K V : Type) [ObjectType K] [ObjectType V] : Kind (Option K) K (Option V) where
  deref := id
  same := sameKey ObjectType.hashCode ObjectType.equals
  default := none
  isNull := Option.isNone
  sameValue := ObjectType.equalPointers
  inserts := false

variable {κ α ν : Type} {kind : Kind κ α ν}

/-! ## The operations

None is the use of a null pointer. -/

/-- `new HashMap()`. -/
def new (kind : Kind κ α ν) : HashMap kind where
  entries := []
  apart := List.Pairwise.nil

def clear (_map : HashMap kind) : HashMap kind :=
  new kind

/-- `mMap[object] = value`. -/
def assign (map : HashMap kind) (object : α) (value : ν) : HashMap kind where
  entries := KeyedList.assign kind.same object value map.entries
  apart := map.apart.assign object value

/-- `mMap.erase(object)`. -/
def erase (map : HashMap kind) (object : α) : HashMap kind where
  entries := KeyedList.erase kind.same object map.entries
  apart := map.apart.erase object

/-- `mMap.find(object)`. -/
def find (map : HashMap kind) (object : α) : Option ν :=
  KeyedList.find kind.same object map.entries

def containsKey (map : HashMap kind) (key : κ) : Bool :=
  match kind.deref key with
  | none => false
  | some object => (map.find object).isSome

/-- The loop of `containsValue`. -/
def anyEquals (kind : Kind κ α ν) (value : ν) : List ν → Option Bool
  | [] => some false
  | stored :: rest =>
      if kind.isNull stored then
        none
      else if kind.sameValue stored value then
        some true
      else
        anyEquals kind value rest

def containsValue (map : HashMap kind) (value : ν) : Option Bool :=
  if kind.isNull value then
    some false
  else
    anyEquals kind value (map.entries.map Prod.snd)

/-- `mMap[key]`. -/
def access (map : HashMap kind) (object : α) : HashMap kind × ν :=
  match map.find object with
  | some value => (map, value)
  | none => (map.assign object kind.default, kind.default)

def get (map : HashMap kind) (key : κ) : Option (HashMap kind × ν) :=
  match kind.deref key with
  | none => none
  | some object =>
      match map.find object with
      | some value => some (map, value)
      | none => some (if kind.inserts then map.access object else (map, kind.default))

def isEmpty (map : HashMap kind) : Bool :=
  map.entries.isEmpty

/-- `HashSet::add`. -/
def addKey (kind : Kind κ α ν) (keys : List α) (key : α) : List α :=
  if keys.any fun other => kind.same other key then keys else keys ++ [key]

def keySet (map : HashMap kind) : List α :=
  map.entries.foldl (fun keys entry => addKey kind keys entry.1) []

/-- The start of `put` and `remove`: the old value of a key. -/
def oldValue (map : HashMap kind) (object : α) : HashMap kind × ν :=
  let accessed := if kind.inserts then map.access object else (map, kind.default)
  (accessed.1, (accessed.1.find object).getD accessed.2)

/-- `put` of a key that is not null. -/
def putObject (map : HashMap kind) (object : α) (value : ν) : HashMap kind × ν :=
  let old := map.oldValue object
  (old.1.assign object value, old.2)

def put (map : HashMap kind) (key : κ) (value : ν) : Option (HashMap kind × ν) :=
  (kind.deref key).map fun object => map.putObject object value

def putAll (map other : HashMap kind) : HashMap kind :=
  other.entries.foldl (fun map entry => (map.putObject entry.1 entry.2).1) map

def remove (map : HashMap kind) (key : κ) : Option (HashMap kind × ν) :=
  match kind.deref key with
  | none => none
  | some object =>
      let old := map.oldValue object
      some (old.1.erase object, old.2)

def size (map : HashMap kind) : Nat :=
  map.entries.length

def values (map : HashMap kind) : List ν :=
  map.entries.map Prod.snd

/-- A call of an operation. -/
inductive Operation {κ α ν : Type} (kind : Kind κ α ν) where
  | clear
  | containsKey (key : κ)
  | containsValue (value : ν)
  | get (key : κ)
  | isEmpty
  | keySet
  | put (key : κ) (value : ν)
  | putAll (other : HashMap kind)
  | remove (key : κ)
  | size
  | values

/-- What an operation returns. -/
inductive Returned (α ν : Type) where
  | nothing
  | flag (flag : Bool)
  | value (value : ν)
  | keys (keys : List α)
  | count (count : Nat)
  | values (values : List ν)

/-- Call an operation. -/
def call (map : HashMap kind) : Operation kind → Option (HashMap kind × Returned α ν)
  | .clear => some (map.clear, .nothing)
  | .containsKey key => some (map, .flag (map.containsKey key))
  | .containsValue value => (map.containsValue value).map fun flag => (map, .flag flag)
  | .get key => (map.get key).map fun got => (got.1, .value got.2)
  | .isEmpty => some (map, .flag map.isEmpty)
  | .keySet => some (map, .keys map.keySet)
  | .put key value => (map.put key value).map fun put => (put.1, .value put.2)
  | .putAll other => some (map.putAll other, .nothing)
  | .remove key => (map.remove key).map fun removed => (removed.1, .value removed.2)
  | .size => some (map, .count map.size)
  | .values => some (map, .values map.values)

end HashMap

end Mindroid
