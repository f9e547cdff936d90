import Mindroid.Foundation.Refinement
import Mindroid.Util.Variant

/-!
# Bundles

A `Bundle` keeps typed values under strings.  What a getter shall return is said by the last value
that was put under the key.
-/

set_option autoImplicit false

namespace Mindroid

open Foundation

namespace Bundle

open Mindroid.String (Buffer)

-- No bundle compares its variants.
variable [ObjectType Variant]

/-- `HashMap<sp<String>, sp<Variant>>`. -/
abbrev Table : Type :=
  HashMap (HashMap.objectObject Buffer Variant)

/-- `mMap` of the objects.  None is a null pointer. -/
abbrev Bundles : Type :=
  Identity → Option Table

/-! ## The methods

None is the use of a null pointer. -/

section Methods

variable (bundles : Bundles) (bundle : Identity)

/-- The constructor. -/
def new : Bundles :=
  Function.update bundles bundle (some (HashMap.new _))

/-- `mMap.clear()`, which is that of the pointer. -/
def clear : Bundles :=
  Function.update bundles bundle none

def putAll (other : Identity) : Option Bundles := do
  let mMap ← bundles bundle
  let others ← bundles other
  some (Function.update bundles bundle (some (mMap.putAll others)))

variable (key : Option Buffer)

def remove : Option Bundles := do
  let mMap ← bundles bundle
  let removed ← mMap.remove key
  some (Function.update bundles bundle (some removed.1))

/-- `mMap->put(key, new Variant(value))`. -/
def putVariant (value : Variant) : Option Bundles := do
  let mMap ← bundles bundle
  let put ← mMap.put key (some value)
  some (Function.update bundles bundle (some put.1))

def putBinder (binder : Option Identity) : Option Bundles :=
  putVariant bundles bundle key ⟨.binder, binder⟩

def putBoolean (value : Bool) : Option Bundles :=
  putVariant bundles bundle key ⟨.bool, value⟩

/-- A bundle is put as an object. -/
def putBundle (value : Option Identity) : Option Bundles :=
  putVariant bundles bundle key ⟨.object, value⟩

def putByte (value : UInt8) : Option Bundles :=
  putVariant bundles bundle key ⟨.byte, value⟩

def putChar (value : UInt8) : Option Bundles :=
  putVariant bundles bundle key ⟨.char, value⟩

def putDouble (value : UInt64) : Option Bundles :=
  putVariant bundles bundle key ⟨.double, value⟩

def putFloat (value : UInt32) : Option Bundles :=
  putVariant bundles bundle key ⟨.float, value⟩

def putInt (value : Int32) : Option Bundles :=
  putVariant bundles bundle key ⟨.int, value⟩

def putUnsignedInt (value : UInt32) : Option Bundles :=
  putVariant bundles bundle key ⟨.unsignedInt, value⟩

def putIntegerArrayList (value : Option Identity) : Option Bundles :=
  putVariant bundles bundle key ⟨.integerArrayList, value⟩

def putLong (value : Int64) : Option Bundles :=
  putVariant bundles bundle key ⟨.long, value⟩

def putUnsignedLong (value : UInt64) : Option Bundles :=
  putVariant bundles bundle key ⟨.unsignedLong, value⟩

def putObject (object : Option Identity) : Option Bundles :=
  putVariant bundles bundle key ⟨.object, object⟩

def putShort (value : Int16) : Option Bundles :=
  putVariant bundles bundle key ⟨.short, value⟩

def putUnsignedShort (value : UInt16) : Option Bundles :=
  putVariant bundles bundle key ⟨.unsignedShort, value⟩

def putString (string : Option Buffer) : Option Bundles :=
  putVariant bundles bundle key ⟨.string, string⟩

def putStringArrayList (value : Option Identity) : Option Bundles :=
  putVariant bundles bundle key ⟨.stringArrayList, value⟩

/-- `mMap->get(key)`. -/
def get : Option (Bundles × Option Variant) := do
  let mMap ← bundles bundle
  let got ← mMap.get key
  some (Function.update bundles bundle (some got.1), got.2)

/-- The value of the variant that was found if it has the type, and a default value if not. -/
def seenOr (type : VariantType) (defaultValue : type.Member) : Option Variant → type.Member
  | none => defaultValue
  | some value => value.valueOr type defaultValue

def getOr (type : VariantType) (defaultValue : type.Member) : Option (Bundles × type.Member) :=
  (get bundles bundle key).map fun got => (got.1, seenOr type defaultValue got.2)

def getBinder : Option (Bundles × Option Identity) :=
  getOr bundles bundle key .binder none

def getBoolean (defaultValue : Bool) : Option (Bundles × Bool) :=
  getOr bundles bundle key .bool defaultValue

/-- `object_cast<Bundle>` is a `static_cast`, which keeps the pointer. -/
def getBundle : Option (Bundles × Option Identity) :=
  getOr bundles bundle key .object none

def getByte (defaultValue : UInt8) : Option (Bundles × UInt8) :=
  getOr bundles bundle key .byte defaultValue

def getChar (defaultValue : UInt8) : Option (Bundles × UInt8) :=
  getOr bundles bundle key .char defaultValue

def getDouble (defaultValue : UInt64) : Option (Bundles × UInt64) :=
  getOr bundles bundle key .double defaultValue

def getFloat (defaultValue : UInt32) : Option (Bundles × UInt32) :=
  getOr bundles bundle key .float defaultValue

def getInt (defaultValue : Int32) : Option (Bundles × Int32) :=
  getOr bundles bundle key .int defaultValue

def getUnsignedInt (defaultValue : UInt32) : Option (Bundles × UInt32) :=
  getOr bundles bundle key .unsignedInt defaultValue

def getIntegerArrayList : Option (Bundles × Option Identity) :=
  getOr bundles bundle key .integerArrayList none

def getLong (defaultValue : Int64) : Option (Bundles × Int64) :=
  getOr bundles bundle key .long defaultValue

def getUnsignedLong (defaultValue : UInt64) : Option (Bundles × UInt64) :=
  getOr bundles bundle key .unsignedLong defaultValue

def getObject : Option (Bundles × Option Identity) :=
  getOr bundles bundle key .object none

/-- `getObject(key, defaultValue)`, which has no use for the default value. -/
def getObjectOr (_defaultValue : Option Identity) : Option (Bundles × Option Identity) :=
  getOr bundles bundle key .object none

def getShort (defaultValue : Int16) : Option (Bundles × Int16) :=
  getOr bundles bundle key .short defaultValue

def getUnsignedShort (defaultValue : UInt16) : Option (Bundles × UInt16) :=
  getOr bundles bundle key .unsignedShort defaultValue

def getString : Option (Bundles × Option Buffer) :=
  getOr bundles bundle key .string none

def getStringOr (defaultValue : Option Buffer) : Option (Bundles × Option Buffer) :=
  getOr bundles bundle key .string defaultValue

def getStringArrayList : Option (Bundles × Option Identity) :=
  getOr bundles bundle key .stringArrayList none

end Methods

/-- A key as an argument: a `String`, or a `const char*` that is made one. -/
inductive Key where
  | string (key : Option Buffer)
  | pointer (key : Option (List UInt8))

/-- `String::valueOf` of a pointer. -/
def Key.object : Key → Option Buffer
  | .string key => key
  | .pointer key => key.map fun string => (String.Buffer.Construction.ofPointer string).build

/-- `getUnsignedShort(const char*, uint16_t)`, which calls `getShort`. -/
def getUnsignedShortOfPointer (bundles : Bundles) (bundle : Identity)
    (key : Option (List UInt8)) (defaultValue : UInt16) : Option (Bundles × UInt16) :=
  (getShort bundles bundle (Key.pointer key).object defaultValue.toInt16).map fun got =>
    (got.1, got.2.toUInt16)

/-- A call of a method that puts a value. -/
inductive Put where
  | binder (value : Option Identity)
  | boolean (value : Bool)
  | bundle (value : Option Identity)
  | byte (value : UInt8)
  | char (value : UInt8)
  | double (value : UInt64)
  | float (value : UInt32)
  | int (value : Int32)
  | unsignedInt (value : UInt32)
  | integerArrayList (value : Option Identity)
  | long (value : Int64)
  | unsignedLong (value : UInt64)
  | object (value : Option Identity)
  | short (value : Int16)
  | unsignedShort (value : UInt16)
  | string (value : Option Buffer)
  | stringArrayList (value : Option Identity)

def Put.call (bundles : Bundles) (bundle : Identity) (key : Option Buffer) :
    Put → Option Bundles
  | .binder value => putBinder bundles bundle key value
  | .boolean value => putBoolean bundles bundle key value
  | .bundle value => putBundle bundles bundle key value
  | .byte value => putByte bundles bundle key value
  | .char value => putChar bundles bundle key value
  | .double value => putDouble bundles bundle key value
  | .float value => putFloat bundles bundle key value
  | .int value => putInt bundles bundle key value
  | .unsignedInt value => putUnsignedInt bundles bundle key value
  | .integerArrayList value => putIntegerArrayList bundles bundle key value
  | .long value => putLong bundles bundle key value
  | .unsignedLong value => putUnsignedLong bundles bundle key value
  | .object value => putObject bundles bundle key value
  | .short value => putShort bundles bundle key value
  | .unsignedShort value => putUnsignedShort bundles bundle key value
  | .string value => putString bundles bundle key value
  | .stringArrayList value => putStringArrayList bundles bundle key value

/-- A call of a method that changes a bundle. -/
inductive Operation where
  | new (bundle : Identity)
  | clear (bundle : Identity)
  | put (bundle : Identity) (key : Key) (put : Put)
  | remove (bundle : Identity) (key : Key)
  | putAll (bundle other : Identity)

def step (bundles : Bundles) : Operation → Option Bundles
  | .new bundle => some (new bundles bundle)
  | .clear bundle => some (clear bundles bundle)
  | .put bundle key put => put.call bundles bundle key.object
  | .remove bundle key => remove bundles bundle key.object
  | .putAll bundle other => putAll bundles bundle other

/-- A getter, with its default value if it has one. -/
inductive Getter where
  | binder
  | boolean (defaultValue : Bool)
  | bundle
  | byte (defaultValue : UInt8)
  | char (defaultValue : UInt8)
  | double (defaultValue : UInt64)
  | float (defaultValue : UInt32)
  | int (defaultValue : Int32)
  | unsignedInt (defaultValue : UInt32)
  | integerArrayList
  | long (defaultValue : Int64)
  | unsignedLong (defaultValue : UInt64)
  | object
  | objectOr (defaultValue : Option Identity)
  | short (defaultValue : Int16)
  | unsignedShort (defaultValue : UInt16)
  | string
  | stringOr (defaultValue : Option Buffer)
  | stringArrayList

/-- The type of the values that a getter is for. -/
def Getter.type : Getter → VariantType
  | .binder => .binder
  | .boolean _ => .bool
  | .bundle => .bundle
  | .byte _ => .byte
  | .char _ => .char
  | .double _ => .double
  | .float _ => .float
  | .int _ => .int
  | .unsignedInt _ => .unsignedInt
  | .integerArrayList => .integerArrayList
  | .long _ => .long
  | .unsignedLong _ => .unsignedLong
  | .object => .object
  | .objectOr _ => .object
  | .short _ => .short
  | .unsignedShort _ => .unsignedShort
  | .string => .string
  | .stringOr _ => .string
  | .stringArrayList => .stringArrayList

/-- The default value, which is null for the getters without one. -/
def Getter.defaultValue : (getter : Getter) → getter.type.Member
  | .binder => none
  | .boolean defaultValue => defaultValue
  | .bundle => none
  | .byte defaultValue => defaultValue
  | .char defaultValue => defaultValue
  | .double defaultValue => defaultValue
  | .float defaultValue => defaultValue
  | .int defaultValue => defaultValue
  | .unsignedInt defaultValue => defaultValue
  | .integerArrayList => none
  | .long defaultValue => defaultValue
  | .unsignedLong defaultValue => defaultValue
  | .object => none
  | .objectOr defaultValue => defaultValue
  | .short defaultValue => defaultValue
  | .unsignedShort defaultValue => defaultValue
  | .string => none
  | .stringOr defaultValue => defaultValue
  | .stringArrayList => none

/-- Call a getter.  The getters for pointers call those for strings, but for one of them. -/
def Getter.call (bundles : Bundles) (bundle : Identity) (key : Key) :
    (getter : Getter) → Option (Bundles × getter.type.Member)
  | .binder => getBinder bundles bundle key.object
  | .boolean defaultValue => getBoolean bundles bundle key.object defaultValue
  | .bundle => getBundle bundles bundle key.object
  | .byte defaultValue => getByte bundles bundle key.object defaultValue
  | .char defaultValue => getChar bundles bundle key.object defaultValue
  | .double defaultValue => getDouble bundles bundle key.object defaultValue
  | .float defaultValue => getFloat bundles bundle key.object defaultValue
  | .int defaultValue => getInt bundles bundle key.object defaultValue
  | .unsignedInt defaultValue => getUnsignedInt bundles bundle key.object defaultValue
  | .integerArrayList => getIntegerArrayList bundles bundle key.object
  | .long defaultValue => getLong bundles bundle key.object defaultValue
  | .unsignedLong defaultValue => getUnsignedLong bundles bundle key.object defaultValue
  | .object => getObject bundles bundle key.object
  | .objectOr defaultValue => getObjectOr bundles bundle key.object defaultValue
  | .short defaultValue => getShort bundles bundle key.object defaultValue
  | .unsignedShort defaultValue =>
      match key with
      | .string key => getUnsignedShort bundles bundle key defaultValue
      | .pointer key => getUnsignedShortOfPointer bundles bundle key defaultValue
  | .string => getString bundles bundle key.object
  | .stringOr defaultValue => getStringOr bundles bundle key.object defaultValue
  | .stringArrayList => getStringArrayList bundles bundle key.object

end Bundle

end Mindroid
