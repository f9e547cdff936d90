import Mindroid.Lang.Integer

/-!
# Elements of an XML document

A document has been read into elements with attributes, which give their values as numbers too.
-/

set_option autoImplicit false

namespace Mindroid

/-- An element, its attributes with their values, and the elements in it. -/
structure XMLElement where
  name : List UInt8
  attributes : List (List UInt8 × List UInt8)
  children : List XMLElement

namespace XMLUtil

def toInt (str : List UInt8) : Option Int32 :=
  Integer.scan str

def toUnsigned (str : List UInt8) : Option UInt32 :=
  Integer.scanUnsigned str

def toBool (str : List UInt8) : Option Bool :=
  match toInt str with
  | some ival => some (if ival = 0 then false else true)
  | none =>
      if String.equals str (String.valueOf "true") then
        some true
      else if String.equals str (String.valueOf "false") then
        some false
      else
        none

end XMLUtil

/-! ## Attributes

The functions that have a number for every value give the one for no number. -/

def XMLAttribute.intValue (value : List UInt8) : Int32 :=
  (XMLUtil.toInt value).getD 0

def XMLAttribute.unsignedValue (value : List UInt8) : UInt32 :=
  (XMLUtil.toUnsigned value).getD 0

def XMLAttribute.boolValue (value : List UInt8) : Bool :=
  (XMLUtil.toBool value).getD false

namespace XMLElement

/-- The value of the first attribute with a name. -/
def findAttribute (element : XMLElement) (name : List UInt8) : Option (List UInt8) :=
  (element.attributes.find? fun a => String.equals a.1 name).map Prod.snd

end XMLElement

end Mindroid
