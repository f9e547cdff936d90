import Mindroid.Lang.StringKeys

/-!
# Variants

A `Variant` has a type and the member of a union that belongs to it.
-/

set_option autoImplicit false

namespace Mindroid

/-- `Variant::Type`. -/
inductive VariantType where
  | null
  | bool
  | byte
  | char
  | short
  | unsignedShort
  | int
  | unsignedInt
  | long
  | unsignedLong
  | float
  | double
  | string
  | stringSet
  | stringArrayList
  | integerArrayList
  | object
  | bundle
  | binder
  deriving DecidableEq, Repr

/-- The member of the union.  A `float` and a `double` are given by their bits, and an object but a
string by its pointer. -/
def VariantType.Member : VariantType → Type
  | null => Unit
  | bool => Bool
  | byte => UInt8
  | char => UInt8
  | short => Int16
  | unsignedShort => UInt16
  | int => Int32
  | unsignedInt => UInt32
  | long => Int64
  | unsignedLong => UInt64
  | float => UInt32
  | double => UInt64
  | string => Option String.Buffer
  | stringSet => Option Identity
  | stringArrayList => Option Identity
  | integerArrayList => Option Identity
  | object => Option Identity
  | bundle => Option Identity
  | binder => Option Identity

namespace Bundle

/-- A `Variant` with any of the types, and not only those of preferences. -/
structure Variant where
  mType : VariantType
  mValue : mType.Member

namespace Variant

/-- The value of a type if the variant has the type, and a default value if not. -/
def valueOr (variant : Variant) (type : VariantType) (defaultValue : type.Member) : type.Member :=
  if isType : variant.mType = type then isType ▸ variant.mValue else defaultValue

theorem valueOr_of_ne {variant : Variant} {type : VariantType} (different : variant.mType ≠ type)
    (defaultValue : type.Member) : variant.valueOr type defaultValue = defaultValue :=
  dif_neg different

def isBundle (variant : Variant) : Bool :=
  variant.mType = .bundle

def isBasicType (variant : Variant) : Bool :=
  variant.mType = .null || variant.mType = .bool || variant.mType = .byte ||
    variant.mType = .char || variant.mType = .short || variant.mType = .unsignedShort ||
    variant.mType = .int || variant.mType = .unsignedInt || variant.mType = .long ||
    variant.mType = .unsignedLong || variant.mType = .float || variant.mType = .double ||
    variant.mType = .string

end Variant

end Bundle

end Mindroid
