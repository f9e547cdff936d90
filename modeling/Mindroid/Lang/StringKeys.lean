import Mindroid.Lang.String
import Mindroid.Util.HashMapRuns
import Mindroid.Util.HashSet

/-!
# Strings as keys

`String::equals` compares the bytes before the first NUL, and a string with the null buffer is
equal to strings with the null buffer only.  `length` and `hashCode` are about all bytes.
-/

set_option autoImplicit false

namespace Mindroid

open Foundation

namespace String

/-- The buffer of a `String`.  `NULL_STRING_BUFFER` has no memory. -/
structure Buffer where
  mData : Option (List UInt8)
  deriving DecidableEq

namespace Buffer

def nullStringBuffer : Buffer :=
  ⟨none⟩

def emptyStringBuffer : Buffer :=
  ⟨some []⟩

/-- `c_arr()` of a `ByteArray`: an empty vector has no memory. -/
def cArr : List UInt8 → Option (List UInt8)
  | [] => none
  | bytes => some bytes

/-- `String(const char*, size_t)`. -/
def ofMemory (memory : Option (List UInt8)) (size : Nat) : Buffer :=
  match memory with
  | none => nullStringBuffer
  | some bytes => if size > 0 then ⟨some (bytes.take size)⟩ else emptyStringBuffer

/-- A call of a constructor.  Memory is given by its bytes, a null pointer by none. -/
inductive Construction where
  | empty
  | ofPointer (string : Option (List UInt8))
  | ofMemory (memory : Option (List UInt8)) (size : Nat)
  | ofChar (c : UInt8)
  | copy (string : Option Buffer)
  | ofByteArray (byteArray : Option (List UInt8))

/-- The buffer of the string that a constructor makes. -/
def Construction.build : Construction → Buffer
  | .empty => emptyStringBuffer
  | .ofPointer none => nullStringBuffer
  | .ofPointer (some string) =>
      if (cStr string).length > 0 then ⟨some (cStr string)⟩ else emptyStringBuffer
  | .ofMemory memory size => Buffer.ofMemory memory size
  | .ofChar c => ⟨some [c]⟩
  | .copy none => nullStringBuffer
  | .copy (some string) => ⟨string.mData⟩
  | .ofByteArray none => nullStringBuffer
  | .ofByteArray (some byteArray) => ⟨cArr byteArray⟩

/-- What `DataInputStream::readUTF` makes of the bytes that were read. -/
def readUTF (bytes : List UInt8) : Buffer :=
  ofMemory (cArr bytes) bytes.length

/-- The bytes that `length` counts. -/
def bytes (string : Buffer) : List UInt8 :=
  string.mData.getD []

def equals (string other : Buffer) : Bool :=
  match string.mData, other.mData with
  | some bytes, some others => String.equals bytes others
  | none, none => true
  | _, _ => false

def hashCode (string : Buffer) : UInt64 :=
  String.hashCode string.bytes

/-! ## The first difference -/

/-- The first difference of two byte sequences comes before a NUL, and is none between a NUL and
the end. -/
def DifferBeforeNul : List UInt8 → List UInt8 → Prop
  | [], [] => False
  | [], d :: _ => d ≠ 0
  | c :: _, [] => c ≠ 0
  | c :: string, d :: other => if c = d then c ≠ 0 ∧ DifferBeforeNul string other else True

/-- Two strings that are kept apart: if they are not of the same bytes, they differ before a NUL,
and if they are both empty, both or none of them have the null buffer. -/
def KeptApart (string other : Buffer) : Prop :=
  match string.mData, other.mData with
  | some bytes, some others => bytes = others ∨ DifferBeforeNul bytes others
  | none, none => True
  | none, some others => others ≠ []
  | some bytes, none => bytes ≠ []

theorem differBeforeNul_iff (string other : List UInt8) :
    DifferBeforeNul string other ↔ cStr string ≠ cStr other := by
  induction string generalizing other with
  | nil =>
      cases other with
      | nil => exact ⟨False.elim, fun different => different rfl⟩
      | cons d other =>
          rw [DifferBeforeNul, cStr_cons]
          split
          case isTrue isNul => exact iff_of_false (absurd isNul) (fun different => different rfl)
          case isFalse notNul => exact iff_of_true notNul (List.cons_ne_nil _ _).symm
  | cons c string ih =>
      cases other with
      | nil =>
          rw [DifferBeforeNul, cStr_cons]
          split
          case isTrue isNul => exact iff_of_false (absurd isNul) (fun different => different rfl)
          case isFalse notNul => exact iff_of_true notNul (List.cons_ne_nil _ _)
      | cons d other =>
          rw [DifferBeforeNul, cStr_cons, cStr_cons]
          split
          case isTrue same =>
            subst same
            split
            case isTrue isNul =>
              exact iff_of_false (fun parts => parts.1 isNul) (fun different => different rfl)
            case isFalse notNul =>
              rw [ih, ne_eq (c :: cStr string), List.cons_inj_right]
              exact and_iff_right notNul
          case isFalse different =>
            refine iff_of_true trivial fun equal => ?_
            split at equal <;> split at equal
            case isTrue.isTrue first second => exact different (first.trans second.symm)
            case isTrue.isFalse => cases equal
            case isFalse.isTrue => cases equal
            case isFalse.isFalse => exact different (List.cons.inj equal).1

/-- Exactly the strings that are kept apart are compared by their bytes. -/
theorem equals_iff_bytes_iff (string other : Buffer) :
    (string.equals other = true ↔ string.bytes = other.bytes) ↔ string.KeptApart other := by
  rcases string with ⟨none | bytes⟩ <;> rcases other with ⟨none | others⟩
  · exact iff_of_true (iff_of_true rfl rfl) trivial
  · rw [KeptApart]
    exact ⟨fun same empty => (by cases same.mpr empty.symm),
      fun filled => iff_of_false Bool.false_ne_true fun empty => filled empty.symm⟩
  · rw [KeptApart]
    exact ⟨fun same empty => (by cases same.mpr empty),
      fun filled => iff_of_false Bool.false_ne_true filled⟩
  · have compared : (Buffer.equals ⟨some bytes⟩ ⟨some others⟩) = true ↔
        cStr bytes = cStr others := beq_iff_eq
    have kept : KeptApart ⟨some bytes⟩ ⟨some others⟩ ↔
        bytes = others ∨ DifferBeforeNul bytes others := Iff.rfl
    rw [kept, compared, differBeforeNul_iff]
    constructor
    · intro same
      by_cases equal : bytes = others
      · exact .inl equal
      · exact .inr fun found => equal (same.mp found)
    · rintro (equal | different)
      · exact iff_of_true (congrArg cStr equal) equal
      · exact iff_of_false different fun equal => different (congrArg cStr equal)

/-! ## Maps and sets of strings -/

/-- The strings of a collection as objects. -/
instance (strings : Set Buffer) : ObjectType strings where
  equals := fun string other => string.1.equals other.1
  hashCode := fun string => string.1.hashCode

instance : ObjectType Buffer where
  equals := equals
  hashCode := hashCode

/-- What a map or set sees of a string. -/
def key (string : Buffer) : UInt64 × Option (List UInt8) :=
  (string.hashCode, string.mData.map cStr)

/-- Maps and sets find out what they see. -/
theorem key_same : KeyedList.Stands
    (HashMap.sameKey (ObjectType.hashCode (α := Buffer)) ObjectType.equals) key := by
  intro string other
  rw [HashMap.sameKey, Bool.and_eq_true, beq_iff_eq, key, key, Prod.mk.injEq]
  apply and_congr_right
  intro _
  rcases string with ⟨none | bytes⟩ <;> rcases other with ⟨none | others⟩
  · exact iff_of_true rfl rfl
  · exact iff_of_false Bool.false_ne_true (Option.some_ne_none (cStr others)).symm
  · exact iff_of_false Bool.false_ne_true (Option.some_ne_none (cStr bytes))
  · exact beq_iff_eq.trans (Option.some_inj (a := cStr bytes)).symm

/-- What a map or set finds the same, if strings are compared by their bytes. -/
theorem same_iff_bytes {strings : Set Buffer}
    (compared : ∀ string ∈ strings, ∀ other ∈ strings,
      (string.equals other = true ↔ string.bytes = other.bytes)) :
    KeyedList.Stands (HashMap.sameKey (ObjectType.hashCode (α := strings)) ObjectType.equals)
      fun string => string.1.bytes :=
  HashMap.stands_of_hash (fun string other => compared string.1 string.2 other.1 other.2)
    fun _ => rfl

variable {V O : Type} [BEq V] [Inhabited V] [ObjectType O]

/-- The strings of a collection are equal if they have the same bytes, have the same hash code
then, and are the keys of maps and sets of byte sequences. -/
structure Keys (V O : Type) [BEq V] [Inhabited V] [ObjectType O] (strings : Set Buffer) :
    Prop where
  equals : ∀ string ∈ strings, ∀ other ∈ strings,
    (string.equals other = true ↔ string.bytes = other.bytes)
  hashCode : ∀ string ∈ strings, ∀ other ∈ strings, string.equals other = true →
    string.hashCode = other.hashCode
  tables : ∃ stands_same : KeyedList.Stands
      (HashMap.sameKey (ObjectType.hashCode (α := strings)) ObjectType.equals)
      fun string => string.1.bytes,
    (∀ operations : List (HashMap.Operation (HashMap.objectPlain strings V)),
      HashMap.RefineAll stands_same operations ↔ HashMap.AllReliable operations) ∧
    (∀ operations : List (HashMap.Operation (HashMap.objectObject strings O)),
      HashMap.RefineAll stands_same operations ↔ HashMap.AllReliable operations) ∧
    ∀ operations, Relates HashSet.step (HashSet.Refines stands_same) (HashSet.new _) operations

/-- The strings of a collection are keys if and only if any two of them are kept apart. -/
theorem keys_iff (strings : Set Buffer) :
    Keys V O strings ↔ ∀ string ∈ strings, ∀ other ∈ strings, string.KeptApart other := by
  constructor
  · intro keys string member other otherMember
    exact (equals_iff_bytes_iff string other).mp (keys.equals string member other otherMember)
  · intro apart
    have compared : ∀ string ∈ strings, ∀ other ∈ strings,
        (string.equals other = true ↔ string.bytes = other.bytes) :=
      fun string member other otherMember =>
        (equals_iff_bytes_iff string other).mpr (apart string member other otherMember)
    have lawful : (HashMap.objectObject strings O).Lawful := HashMap.equalPointers_none
    refine ⟨compared, fun string member other otherMember equal => ?_, same_iff_bytes compared,
      ?_, ?_, ?_⟩
    · rw [Buffer.hashCode, Buffer.hashCode,
        (compared string member other otherMember).mp equal]
    · exact HashMap.refineAll_iff (fun _ _ isNull => (by cases isNull)) _
    · exact HashMap.refineAll_iff lawful _
    · exact HashSet.calls_refine _ _

/-- The empty string and the one of a single NUL are one key, and the empty string that `readUTF`
makes is not equal to the empty string. -/
theorem nul_string_merged :
    let empty := Construction.empty.build
    let nul := (Construction.ofByteArray (some [0])).build
    (empty.equals nul = true ∧ empty.bytes ≠ nul.bytes) ∧
      ((HashMap.new (HashMap.objectPlain (Set.univ : Set Buffer) Int32)).put
            (some ⟨empty, trivial⟩) 1).bind
          (fun put => (put.1.put (some ⟨nul, trivial⟩) 2).map fun again => (again.1.size, again.2)) =
        some (1, 1) ∧
      (readUTF []).equals empty = false ∧ (readUTF []).bytes = empty.bytes ∧
      ¬ Keys Int32 Identity Set.univ := by
  intro empty nul
  have merged : empty.equals nul = true := by decide
  have different : empty.bytes ≠ nul.bytes := by decide
  refine ⟨⟨merged, different⟩, by decide, by decide, by decide, fun keys => ?_⟩
  exact different ((keys.equals empty trivial nul trivial).mp merged)

end Buffer

/-- A string without NUL. -/
structure Text where
  bytes : List UInt8
  nonzero : ∀ c ∈ bytes, c ≠ 0

namespace Text

instance : ObjectType Text where
  equals := fun string other => String.equals string.bytes other.bytes
  hashCode := fun string => String.hashCode string.bytes

/-- `String::valueOf` of a pointer. -/
def valueOf (string : List UInt8) : Text where
  bytes := cStr string
  nonzero := nonzero_cStr string

theorem valueOf_bytes (string : Text) : valueOf string.bytes = string := by
  rcases string with ⟨bytes, nonzero⟩
  have visible := cStr_of_nonzero nonzero
  rw [valueOf]
  congr

/-- Strings without NUL are keys by their bytes. -/
theorem same_iff_bytes : KeyedList.Stands
    (HashMap.sameKey (ObjectType.hashCode (α := Text)) ObjectType.equals) Text.bytes := by
  refine HashMap.stands_of_hash (fun string other => ?_) fun _ => rfl
  change (cStr string.bytes == cStr other.bytes) = true ↔ _
  rw [beq_iff_eq, cStr_of_nonzero string.nonzero, cStr_of_nonzero other.nonzero]

end Text

end String

end Mindroid
