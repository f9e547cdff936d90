import Mindroid.Lang.Integer
import Mindroid.Lang.StringKeys

/-!
# The file of shared preferences

`writeMap` makes an XML document of the preferences, and `readMap` makes preferences of the
document that the XML library finds in the file.  The library finds what was set, but a text
without characters leaves nothing in the file.
-/

set_option autoImplicit false

namespace Mindroid

open Foundation

/-- A node of an XML document. -/
inductive XMLNode where
  | declaration (value : List UInt8)
  | text (value : List UInt8)
  | element (name : List UInt8) (attributes : List (List UInt8 × List UInt8))
      (children : List XMLNode)

namespace XMLNode

/-- `Value()`. -/
def value : XMLNode → List UInt8
  | declaration value => value
  | text value => value
  | element name _ _ => name

/-- The value of `FindAttribute(name)`. -/
def findAttribute (attributes : List (List UInt8 × List UInt8)) (name : List UInt8) :
    Option (List UInt8) :=
  (attributes.find? fun pair => pair.1 == name).map Prod.snd

/-- `XMLUtil::ToBool`, and false if there is none. -/
def boolValue (value : List UInt8) : Bool :=
  match Integer.scan value with
  | some number => number != 0
  | none => value == String.valueOf "true"

/-- `XMLUtil::ToInt`, and 0 if there is none. -/
def intValue (value : List UInt8) : Int32 :=
  (Integer.scan value).getD 0

mutual

/-- A node that is found in the file of a document with the node. -/
def reload (keepsEmptyText : Bool) : XMLNode → Option XMLNode
  | declaration value => some (declaration value)
  | text value => if value.isEmpty && !keepsEmptyText then none else some (text value)
  | element name attributes children =>
      some (element name attributes (reloadAll keepsEmptyText children))

/-- The nodes that are found in the file of a document with the nodes. -/
def reloadAll (keepsEmptyText : Bool) : List XMLNode → List XMLNode
  | [] => []
  | node :: nodes => (reload keepsEmptyText node).toList ++ reloadAll keepsEmptyText nodes

end

end XMLNode

/-- The types of values that are preferences.  A number of the type `float` is given by its bits. -/
inductive Variant where
  | null
  | bool (value : Bool)
  | int (value : Int32)
  | long (value : Int64)
  | float (bits : UInt32)
  | string (value : String.Text)
  | stringSet (value : HashSet (HashMap.sameKey (ObjectType.hashCode (α := String.Text))
      ObjectType.equals))

/-- How numbers of the type `float` are printed and read. -/
structure FloatText where
  print : UInt32 → List UInt8
  read : List UInt8 → UInt32

namespace SharedPreferencesImpl

open XMLNode

/-- `equals` of two variants that are different objects, and so are their sets. -/
def equalVariants : Variant → Variant → Bool
  | .null, .null => true
  | .bool value, .bool other => value == other
  | .int value, .int other => value == other
  | .long value, .long other => value == other
  | .float bits, .float other => bits == other
  | .string value, .string other => ObjectType.equals value other
  | _, _ => false

/-- `HashMap<sp<String>, sp<Variant>>`. -/
def preferences : HashMap.Kind (Option String.Text) String.Text (Option Variant) where
  deref := id
  same := HashMap.sameKey ObjectType.hashCode ObjectType.equals
  default := none
  isNull := Option.isNone
  sameValue := fun value other =>
    match value, other with
    | some value, some other => equalVariants value other
    | none, none => true
    | _, _ => false
  inserts := false

abbrev Preferences : Type :=
  HashMap preferences

def mapTag : List UInt8 := String.valueOf "map"

def booleanTag : List UInt8 := String.valueOf "boolean"

def intTag : List UInt8 := String.valueOf "int"

def longTag : List UInt8 := String.valueOf "long"

def floatTag : List UInt8 := String.valueOf "float"

def stringTag : List UInt8 := String.valueOf "string"

def stringSetTag : List UInt8 := String.valueOf "set"

def nameAttr : List UInt8 := String.valueOf "name"

def valueAttr : List UInt8 := String.valueOf "value"

variable (floats : FloatText)

/-! ## Writing -/

/-- An element with a name and a value. -/
def valueElement (tag name value : List UInt8) : XMLNode :=
  element tag [(nameAttr, name), (valueAttr, value)] []

def writeValue (name : String.Text) : Option Variant → Option XMLNode
  | none => none
  | some .null => none
  | some (.bool value) =>
      some (valueElement booleanTag name.bytes
        (if value then String.valueOf "true" else String.valueOf "false"))
  | some (.int value) => some (valueElement intTag name.bytes (Integer.toString value))
  | some (.long value) =>
      -- the number is cast to `int`
      some (valueElement longTag name.bytes (Integer.toString value.toInt32))
  | some (.float bits) => some (valueElement floatTag name.bytes (floats.print bits))
  | some (.string value) =>
      some (element stringTag [(nameAttr, name.bytes)] [text value.bytes])
  | some (.stringSet value) =>
      some (element stringSetTag [(nameAttr, name.bytes)]
        (value.entries.map fun entry => element stringTag [] [text entry.1.bytes]))

/-- The document that `writeMap` saves. -/
def writeMap (map : Preferences) : List XMLNode :=
  [declaration (String.valueOf "xml version=\"1.0\" encoding=\"UTF-8\""),
    element mapTag [] (map.entries.filterMap fun entry => writeValue floats entry.1 entry.2)]

/-! ## Reading -/

/-- `map->put(key, new Variant(value))`. -/
def putVariant (map : Preferences) (name : List UInt8) (value : Variant) : Preferences :=
  (map.putObject (String.Text.valueOf name) (some value)).1

/-- Read an element with a name and a value. -/
def parseValue (convert : List UInt8 → Variant) (map : Preferences)
    (attributes : List (List UInt8 × List UInt8)) : Preferences :=
  match findAttribute attributes nameAttr, findAttribute attributes valueAttr with
  | some name, some value => putVariant map name (convert value)
  | _, _ => map

def parseBoolean : Preferences → List (List UInt8 × List UInt8) → Preferences :=
  parseValue fun value => .bool (boolValue value)

def parseInt : Preferences → List (List UInt8 × List UInt8) → Preferences :=
  parseValue fun value => .int (intValue value)

def parseLong : Preferences → List (List UInt8 × List UInt8) → Preferences :=
  parseValue fun value => .long (intValue value).toInt64

def parseFloat : Preferences → List (List UInt8 × List UInt8) → Preferences :=
  parseValue fun value => .float (floats.read value)

def parseString (map : Preferences) (attributes : List (List UInt8 × List UInt8))
    (children : List XMLNode) : Preferences :=
  match findAttribute attributes nameAttr with
  | some name =>
      putVariant map name (.string (String.Text.valueOf ((children.head?.map value).getD [])))
  | none => map

/-- The strings that `parseStringSet` finds in the children of an element. -/
def setStrings (children : List XMLNode) : List String.Text :=
  children.filterMap fun child =>
    match child with
    | element name _ (node :: _) =>
        if name == stringTag then some (String.Text.valueOf node.value) else none
    | _ => none

def parseStringSet (map : Preferences) (attributes : List (List UInt8 × List UInt8))
    (children : List XMLNode) : Preferences :=
  match findAttribute attributes nameAttr with
  | some name =>
      putVariant map name
        (.stringSet ((setStrings children).foldl (fun set string => (set.add string).1)
          (HashSet.new _)))
  | none => map

/-- One iteration of the loop in `readMap`. -/
def parseElement (map : Preferences) : XMLNode → Preferences
  | element name attributes children =>
      if name == booleanTag then
        parseBoolean map attributes
      else if name == intTag then
        parseInt map attributes
      else if name == longTag then
        parseLong map attributes
      else if name == floatTag then
        parseFloat floats map attributes
      else if name == stringTag then
        parseString map attributes children
      else if name == stringSetTag then
        parseStringSet map attributes children
      else
        map
  | _ => map

/-- The children of `FirstChildElement(MAP_TAG)`. -/
def rootChildren (document : List XMLNode) : Option (List XMLNode) :=
  document.findSome? fun node =>
    match node with
    | element name _ children => if name == mapTag then some children else none
    | _ => none

/-- `readMap` of a file with a document.  None is `nullptr`. -/
def readMap (document : List XMLNode) : Option Preferences :=
  (rootChildren document).map fun children =>
    children.foldl (parseElement floats) (HashMap.new preferences)

/-! ## What is read of what was written -/

/-- The types of preferences but `float`. -/
def Supported : Variant → Prop
  | .null => False
  | .float _ => False
  | _ => True

/-- The set that is read of the elements that were written for a set. -/
def rereadSet (keepsEmptyText : Bool)
    (set : HashSet (HashMap.sameKey (ObjectType.hashCode (α := String.Text)) ObjectType.equals)) :
    HashSet (HashMap.sameKey (ObjectType.hashCode (α := String.Text)) ObjectType.equals) :=
  ((set.entries.map Prod.fst).filter fun string => keepsEmptyText || !string.bytes.isEmpty).foldl
    (fun set string => (set.add string).1) (HashSet.new _)

/-- The value that is read of the element that was written for a value. -/
def reread (keepsEmptyText : Bool) : Variant → Variant
  | .long value => .long value.toInt32.toInt64
  | .stringSet set => .stringSet (rereadSet keepsEmptyText set)
  | value => value

theorem boolValue_text (value : Bool) :
    boolValue (if value then String.valueOf "true" else String.valueOf "false") = value := by
  cases value <;> decide

theorem intValue_toString (value : Int32) : intValue (Integer.toString value) = value := by
  rw [intValue, Integer.scan_toString]
  rfl

theorem putVariant_bytes (map : Preferences) (name : String.Text) (value : Variant) :
    putVariant map name.bytes value = (map.putObject name (some value)).1 := by
  rw [putVariant, String.Text.valueOf_bytes]

theorem reloadAll_text (keepsEmptyText : Bool) (bytes : List UInt8) :
    reloadAll keepsEmptyText [text bytes] =
      if keepsEmptyText || !bytes.isEmpty then [text bytes] else [] := by
  rw [reloadAll, reload, reloadAll, List.append_nil]
  cases keepsEmptyText <;> cases bytes <;> rfl

/-- The text of an element for a string. -/
theorem value_reloaded (keepsEmptyText : Bool) (bytes : List UInt8) :
    ((reloadAll keepsEmptyText [text bytes]).head?.map value).getD [] = bytes := by
  rw [reloadAll_text]
  cases bytes with
  | nil => cases keepsEmptyText <;> rfl
  | cons c rest => cases keepsEmptyText <;> rfl

theorem setStrings_reloaded (keepsEmptyText : Bool) (strings : List String.Text) :
    setStrings (reloadAll keepsEmptyText
        (strings.map fun string => element stringTag [] [text string.bytes])) =
      strings.filter fun string => keepsEmptyText || !string.bytes.isEmpty := by
  induction strings with
  | nil => rfl
  | cons string strings ih =>
      rw [List.map_cons, reloadAll, reload, List.filter_cons, reloadAll_text]
      cases keepsEmptyText || !string.bytes.isEmpty with
      | true =>
          change String.Text.valueOf string.bytes :: setStrings (reloadAll _ _) = string :: _
          rw [String.Text.valueOf_bytes, ih]
      | false => exact ih

/-- A value that was written is read. -/
theorem parse_written (keepsEmptyText : Bool) (name : String.Text) {value : Variant}
    (supported : Supported value) :
    ∃ node node', writeValue floats name (some value) = some node ∧
      reload keepsEmptyText node = some node' ∧
      ∀ map, parseElement floats map node' =
        (map.putObject name (some (reread keepsEmptyText value))).1 := by
  cases value with
  | null => exact supported.elim
  | float bits => exact supported.elim
  | bool value =>
      refine ⟨_, _, rfl, rfl, fun map => ?_⟩
      change putVariant map name.bytes (.bool (boolValue _)) = _
      rw [putVariant_bytes, boolValue_text]
      rfl
  | int value =>
      refine ⟨_, _, rfl, rfl, fun map => ?_⟩
      change putVariant map name.bytes (.int (intValue _)) = _
      rw [putVariant_bytes, intValue_toString]
      rfl
  | long value =>
      refine ⟨_, _, rfl, rfl, fun map => ?_⟩
      change putVariant map name.bytes (.long (intValue _).toInt64) = _
      rw [putVariant_bytes, intValue_toString]
      rfl
  | string value =>
      refine ⟨_, _, rfl, rfl, fun map => ?_⟩
      change putVariant map name.bytes (.string (String.Text.valueOf
        (((reloadAll keepsEmptyText [text value.bytes]).head?.map XMLNode.value).getD []))) = _
      rw [putVariant_bytes, value_reloaded, String.Text.valueOf_bytes]
      rfl
  | stringSet value =>
      refine ⟨_, _, rfl, rfl, fun map => ?_⟩
      change putVariant map name.bytes (.stringSet ((setStrings (reloadAll keepsEmptyText
        (value.entries.map fun entry => element stringTag [] [text entry.1.bytes]))).foldl _ _)) = _
      have strings := setStrings_reloaded keepsEmptyText (value.entries.map Prod.fst)
      rw [List.map_map] at strings
      rw [putVariant_bytes]
      exact congrArg (fun strings => (map.putObject name (some (.stringSet
        (strings.foldl (fun set string => (set.add string).1) (HashSet.new _))))).1) strings

/-! ## The same preferences -/

/-- What a preference is: a set of strings is what is in it. -/
inductive Preference where
  | null
  | bool (value : Bool)
  | int (value : Int32)
  | long (value : Int64)
  | float (bits : UInt32)
  | string (bytes : List UInt8)
  | stringSet (strings : Finset (List UInt8))

def meaning : Variant → Preference
  | .null => .null
  | .bool value => .bool value
  | .int value => .int value
  | .long value => .long value
  | .float bits => .float bits
  | .string value => .string value.bytes
  | .stringSet value => .stringSet (value.finite String.Text.same_iff_bytes)

/-- Two maps have the same preferences for all keys. -/
def SameMap (left right : Preferences) : Prop :=
  ∀ key, (left.find key).map (Option.map meaning) = (right.find key).map (Option.map meaning)

/-- The values that are not changed by writing and reading them: numbers of the type `long` that
fit into an `int`, and sets whose strings all leave a text in the file. -/
def Kept (keepsEmptyText : Bool) : Variant → Prop
  | .long value => -2 ^ 31 ≤ value.toInt ∧ value.toInt < 2 ^ 31
  | .stringSet set => keepsEmptyText = true ∨ set.contains (String.Text.valueOf []) = false
  | _ => True

theorem long_kept_iff (value : Int64) :
    value.toInt32.toInt64 = value ↔ -2 ^ 31 ≤ value.toInt ∧ value.toInt < 2 ^ 31 := by
  rw [← Int64.toInt_inj, Int32.toInt_toInt64, Int64.toInt_toInt32, Int.bmod_def]
  omega

theorem mem_finite_rereadSet (keepsEmptyText : Bool)
    (set : HashSet (HashMap.sameKey (ObjectType.hashCode (α := String.Text))
      ObjectType.equals)) (bytes : List UInt8) :
    bytes ∈ (rereadSet keepsEmptyText set).finite String.Text.same_iff_bytes ↔
      bytes ∈ set.finite String.Text.same_iff_bytes ∧
        (keepsEmptyText || !bytes.isEmpty) = true := by
  have added := HashSet.addEach_finite String.Text.same_iff_bytes (HashSet.new _)
    (((set.entries.map Prod.fst).filter fun string =>
      keepsEmptyText || !string.bytes.isEmpty).map fun string => (string, ()))
  rw [List.foldl_map] at added
  rw [rereadSet, added, Finset.mem_union, List.mem_toFinset, HashSet.mem_finite,
    HashSet.mem_finite, List.map_map, List.mem_map]
  constructor
  · rintro (⟨_, inNew, _⟩ | ⟨string, kept, rfl⟩)
    · exact absurd inNew List.not_mem_nil
    · rcases List.mem_filter.mp kept with ⟨inSet, keeps⟩
      rcases List.mem_map.mp inSet with ⟨entry, isEntry, rfl⟩
      exact ⟨⟨entry, isEntry, rfl⟩, keeps⟩
  · rintro ⟨⟨entry, isEntry, rfl⟩, keeps⟩
    exact .inr ⟨entry.1, List.mem_filter.mpr ⟨List.mem_map.mpr ⟨entry, isEntry, rfl⟩, keeps⟩, rfl⟩

theorem set_kept_iff (keepsEmptyText : Bool)
    (set : HashSet (HashMap.sameKey (ObjectType.hashCode (α := String.Text))
      ObjectType.equals)) :
    (rereadSet keepsEmptyText set).finite String.Text.same_iff_bytes =
        set.finite String.Text.same_iff_bytes ↔
      keepsEmptyText = true ∨ set.contains (String.Text.valueOf []) = false := by
  have empty := HashSet.mem_finite_iff String.Text.same_iff_bytes set (String.Text.valueOf [])
  rw [← Bool.not_eq_true, ← empty, Finset.ext_iff]
  constructor
  · intro same
    cases keepsEmptyText with
    | true => exact .inl rfl
    | false =>
        refine .inr fun member => ?_
        have kept := (mem_finite_rereadSet false set _).mp ((same _).mpr member)
        exact absurd kept.2 (by decide)
  · intro keeps bytes
    rw [mem_finite_rereadSet]
    refine and_iff_left_of_imp fun member => ?_
    cases bytes with
    | nil =>
        cases keeps with
        | inl keepsAll =>
            rw [keepsAll]
            rfl
        | inr lacks => exact absurd member lacks
    | cons c rest => exact Bool.or_true _

theorem meaning_reread_iff (keepsEmptyText : Bool) (value : Variant) :
    meaning (reread keepsEmptyText value) = meaning value ↔ Kept keepsEmptyText value := by
  cases value with
  | long value =>
      rw [Kept, ← long_kept_iff]
      exact ⟨fun same => Preference.long.inj same, congrArg Preference.long⟩
  | stringSet set =>
      rw [Kept, ← set_kept_iff]
      exact ⟨fun same => Preference.stringSet.inj same, congrArg Preference.stringSet⟩
  | _ => exact iff_of_true rfl trivial

/-! ## The whole file -/

theorem preferences_same : KeyedList.Stands preferences.same String.Text.bytes :=
  String.Text.same_iff_bytes

/-- The elements that were written for entries are read one after the other. -/
theorem parse_children (keepsEmptyText : Bool) {entries : List (String.Text × Option Variant)}
    (supported : ∀ entry ∈ entries, ∃ value, entry.2 = some value ∧ Supported value)
    (map : Preferences) :
    (reloadAll keepsEmptyText (entries.filterMap fun entry =>
        writeValue floats entry.1 entry.2)).foldl (parseElement floats) map =
      (entries.map fun entry => (entry.1, entry.2.map (reread keepsEmptyText))).foldl
        (fun map entry => (map.putObject entry.1 entry.2).1) map := by
  induction entries generalizing map with
  | nil => rfl
  | cons entry entries ih =>
      have parts := List.forall_mem_cons.mp supported
      rcases parts.1 with ⟨value, isValue, isSupported⟩
      rcases parse_written floats keepsEmptyText entry.1 isSupported with
        ⟨node, node', writes, reloads, parses⟩
      have written : (entry :: entries).filterMap
          (fun entry => writeValue floats entry.1 entry.2) =
            node :: entries.filterMap fun entry => writeValue floats entry.1 entry.2 :=
        List.filterMap_cons_some (by rw [isValue, writes])
      rw [written, reloadAll, reloads, List.map_cons, List.foldl_cons,
        isValue]
      change (reloadAll _ _).foldl _ (parseElement floats map node') = _
      rw [parses, ih parts.2]
      rfl

/-- The file that was written for a map is read, and every value as what can be read of it. -/
theorem reads_written (keepsEmptyText : Bool) (map : Preferences)
    (supported : ∀ value ∈ map.values, ∃ variant, value = some variant ∧ Supported variant) :
    ∃ map', readMap floats (reloadAll keepsEmptyText (writeMap floats map)) = some map' ∧
      ∀ key, map'.find key = (map.find key).map (Option.map (reread keepsEmptyText)) := by
  have entriesSupported : ∀ entry ∈ map.entries,
      ∃ value, entry.2 = some value ∧ Supported value := fun entry member =>
    supported entry.2 (List.mem_map.mpr ⟨entry, member, rfl⟩)
  have apart : KeyedList.Apart preferences.same
      (map.entries.map fun entry => (entry.1, entry.2.map (reread keepsEmptyText))) :=
    List.pairwise_map.mpr map.apart
  refine ⟨_, congrArg some (parse_children floats keepsEmptyText entriesSupported
    (HashMap.new preferences)), fun key => ?_⟩
  have put := HashMap.putEach_finite preferences_same apart (HashMap.new preferences)
  rw [← HashMap.lookup_finite preferences_same]
  refine (congrArg (Finmap.lookup key.bytes) put).trans ?_
  rw [HashMap.finite_new, Finmap.union_empty,
    KeyedList.lookup_finite preferences_same apart, KeyedList.find_map]
  rfl

/-- Reading the file gives the preferences that were written, if and only if all values are kept
by writing and reading them. -/
theorem readMap_writeMap_iff (keepsEmptyText : Bool) (map : Preferences)
    (supported : ∀ value ∈ map.values, ∃ variant, value = some variant ∧ Supported variant) :
    (∃ map', readMap floats (reloadAll keepsEmptyText (writeMap floats map)) = some map' ∧
        SameMap map' map) ↔
      ∀ variant, some variant ∈ map.values → Kept keepsEmptyText variant := by
  rcases reads_written floats keepsEmptyText map supported with ⟨read, returns, finds⟩
  constructor
  · rintro ⟨other, isRead, same⟩ variant member
    rw [returns] at isRead
    cases isRead
    rcases List.mem_map.mp member with ⟨entry, inMap, isVariant⟩
    have found : map.find entry.1 = some entry.2 :=
      KeyedList.find_of_mem preferences_same map.apart inMap
    have equal := same entry.1
    rw [finds, found, isVariant] at equal
    exact (meaning_reread_iff keepsEmptyText variant).mp
      (Option.some.inj (Option.some.inj equal))
  · intro kept
    refine ⟨read, returns, fun key => ?_⟩
    rw [finds]
    cases found : map.find key with
    | none => rfl
    | some value =>
        rcases KeyedList.mem_of_find found with ⟨entry, inMap, isValue⟩
        have member : value ∈ map.values := List.mem_map.mpr ⟨entry, inMap, isValue⟩
        rcases supported value member with ⟨variant, rfl, _⟩
        exact congrArg (fun preference => some (some preference))
          ((meaning_reread_iff keepsEmptyText variant).mpr (kept variant member))

/-- A map with one preference. -/
def single (key : List UInt8) (value : Variant) : Preferences :=
  putVariant (HashMap.new preferences) key value

/-- The number 2147483648 comes back negative, and the empty string is no longer in its set. -/
theorem long_and_empty_string_lost :
    let floats : FloatText := ⟨fun _ => [], fun _ => 0⟩
    let key := String.valueOf "key"
    let empty := (HashSet.new _).insert (String.Text.valueOf [])
    (∃ map', readMap floats (reloadAll false (writeMap floats (single key (.long 2147483648)))) =
        some map' ∧
      map'.find (String.Text.valueOf key) = some (some (.long (-2147483648))) ∧
        ¬SameMap map' (single key (.long 2147483648))) ∧
    ∃ map' set, readMap floats (reloadAll false (writeMap floats (single key (.stringSet empty)))) =
        some map' ∧
      map'.find (String.Text.valueOf key) = some (some (.stringSet set)) ∧ set.isEmpty = true ∧
        ¬SameMap map' (single key (.stringSet empty)) := by
  intro floats key empty
  constructor
  · rcases reads_written floats false (single key (.long 2147483648))
      (List.forall_mem_singleton.mpr ⟨_, rfl, trivial⟩) with ⟨read, returns, finds⟩
    have found := finds (String.Text.valueOf key)
    refine ⟨read, returns, found, fun same => ?_⟩
    have equal := same (String.Text.valueOf key)
    rw [found] at equal
    cases equal
  · rcases reads_written floats false (single key (.stringSet empty))
      (List.forall_mem_singleton.mpr ⟨_, rfl, trivial⟩) with ⟨read, returns, finds⟩
    have found := finds (String.Text.valueOf key)
    refine ⟨read, _, returns, found, rfl, fun same => ?_⟩
    have equal := same (String.Text.valueOf key)
    rw [found] at equal
    have sets := Preference.stringSet.inj (Option.some.inj (Option.some.inj equal))
    cases ((set_kept_iff false empty).mp sets).resolve_left Bool.false_ne_true

/-- A small number and a set with a string come back. -/
theorem readMap_writeMap_iff_instance :
    let floats : FloatText := ⟨fun _ => [], fun _ => 0⟩
    let set := (HashSet.new _).insert (String.Text.valueOf [97])
    let map := putVariant (single [107] (.long 7)) [115] (.stringSet set)
    ∃ map', readMap floats (reloadAll false (writeMap floats map)) = some map' ∧
      SameMap map' map := by
  intro floats set map
  have values : map.values = [some (.long 7), some (.stringSet set)] := rfl
  refine (readMap_writeMap_iff floats false map ?_).mpr ?_
  · rw [values]
    exact List.forall_mem_cons.mpr ⟨⟨_, rfl, trivial⟩,
      List.forall_mem_singleton.mpr ⟨_, rfl, trivial⟩⟩
  · intro variant member
    rw [values] at member
    cases member with
    | head => exact ⟨by decide, by decide⟩
    | tail _ inRest =>
        cases List.mem_singleton.mp inRest
        exact .inr rfl

end SharedPreferencesImpl

end Mindroid
