import Mindroid.Foundation.Edits
import Mindroid.Foundation.Refinement
import Mindroid.Lang.Integer
import Mindroid.Lang.StringKeys

/-!
# String builders

A `StringBuilder` keeps its characters in a `std::string`, which counts them and may contain NUL.
A `String` comes into it and out of it as a C string.
-/

set_option autoImplicit false

namespace Mindroid

open Foundation

namespace StringBuilder

open Mindroid.String (Buffer cStr sizeSub)

/-- What ends a call that does not return: an exception of `std::string` or of its own, the use of
a null pointer, or an address outside of an array. -/
inductive Failure where
  | outOfRange
  | indexOutOfBoundsException
  | nullPointer
  | outside
  deriving DecidableEq

/-! ## Strings of the standard library -/

/-- `std::string::insert`. -/
def stdInsert (mString : List UInt8) (pos : Nat) (part : List UInt8) :
    Except Failure (List UInt8) :=
  if pos > mString.length then .error .outOfRange else .ok (splice mString pos pos part)

/-- `std::string::replace`. -/
def stdReplace (mString : List UInt8) (pos n : Nat) (part : List UInt8) :
    Except Failure (List UInt8) :=
  if pos > mString.length then
    .error .outOfRange
  else
    .ok (splice mString pos (pos + min n (mString.length - pos)) part)

/-- `std::string::erase`. -/
def stdErase (mString : List UInt8) (pos n : Nat) : Except Failure (List UInt8) :=
  stdReplace mString pos n []

/-- `std::string::substr`. -/
def stdSubstr (mString : List UInt8) (pos n : Nat) : Except Failure (List UInt8) :=
  if pos > mString.length then .error .outOfRange else .ok ((mString.drop pos).take n)

/-- What is read through a pointer into an array. -/
def readArray (array : List UInt8) (offset size : Nat) : Except Failure (List UInt8) :=
  if offset + size ≤ array.length then .ok ((array.drop offset).take size) else .error .outside

/-- What is read through `c_str()`. -/
def readString (string : Buffer) : Except Failure (List UInt8) :=
  match string.mData with
  | none => .error .nullPointer
  | some bytes => .ok (cStr bytes)

/-! ## The methods -/

/-- A value that is appended or inserted as text.  `std::to_string` prints a floating-point number
as it likes. -/
inductive Value where
  | bool (value : Bool)
  | char (value : UInt8)
  | integer (value : Int)
  | floating (printed : List UInt8)

def Value.text : Value → List UInt8
  | .bool value => String.valueOf (if value then "true" else "false")
  | .char value => [value]
  | .integer value =>
      if value < 0 then 45 :: Integer.decimal value.natAbs else Integer.decimal value.natAbs
  | .floating printed => printed

variable (mString : List UInt8)

/-- `append` of a bool, a char or a number. -/
def append (value : Value) : List UInt8 :=
  mString ++ value.text

/-- `append(const sp<ByteArray>&)`. -/
def appendByteArray (charSequence : List UInt8) : List UInt8 :=
  mString ++ charSequence

/-- `append(const char*)`. -/
def appendCString (string : List UInt8) : List UInt8 :=
  mString ++ cStr string

/-- `append(const char*, size_t)`. -/
def appendChars (string : List UInt8) (size : Nat) : Except Failure (List UInt8) :=
  (readArray string 0 size).map (mString ++ ·)

/-- `append(const sp<ByteArray>&, size_t, size_t)`. -/
def appendSubarray (charSequence : List UInt8) (offset size : Nat) :
    Except Failure (List UInt8) :=
  (readArray charSequence offset (min (sizeSub charSequence.length offset) size)).map (mString ++ ·)

/-- `append(const sp<String>&)`. -/
def appendString (string : Buffer) : Except Failure (List UInt8) :=
  (readString string).map (mString ++ ·)

def deleteRange (start stop : Nat) : Except Failure (List UInt8) :=
  stdErase mString start (sizeSub stop start)

def deleteCharAt (index : Nat) : Except Failure (List UInt8) :=
  stdErase mString index 1

/-- `insert` of a bool, a char or a number. -/
def insert (offset : Nat) (value : Value) : Except Failure (List UInt8) :=
  stdInsert mString offset value.text

/-- `insert(size_t, const sp<ByteArray>&)`. -/
def insertByteArray (offset : Nat) (charSequence : List UInt8) : Except Failure (List UInt8) :=
  stdInsert mString offset charSequence

/-- `insert(size_t, const sp<ByteArray>&, size_t, size_t)`, which inserts at the offset. -/
def insertSubarray (_index : Nat) (charSequence : List UInt8) (offset size : Nat) :
    Except Failure (List UInt8) :=
  if offset > mString.length then
    .error .outOfRange
  else do
    let part ← readArray charSequence offset (min size (sizeSub charSequence.length offset))
    stdInsert mString offset part

/-- `insert(size_t, const sp<String>&)`. -/
def insertString (offset : Nat) (string : Buffer) : Except Failure (List UInt8) := do
  let part ← readString string
  stdInsert mString offset part

def replace (start stop : Nat) (string : Buffer) : Except Failure (List UInt8) := do
  let part ← readString string
  stdReplace mString start (sizeSub stop start) part

def reverse : List UInt8 :=
  mString.reverse

def setCharAt (index : Nat) (c : UInt8) : Except Failure (List UInt8) :=
  if index ≥ mString.length then .error .indexOutOfBoundsException else .ok (mString.set index c)

/-- `setLength`, which fills up with NUL. -/
def setLength (newLength : Nat) : List UInt8 :=
  mString.take newLength ++ List.replicate (newLength - mString.length) 0

/-- `new String(const char*)` of the characters of a `std::string`. -/
def newString (chars : List UInt8) : Buffer :=
  (Buffer.Construction.ofPointer (some chars)).build

/-- `substring(size_t)`. -/
def substringFrom (start : Nat) : Except Failure Buffer :=
  (stdSubstr mString start mString.length).map newString

/-- `substring(size_t, size_t)`. -/
def substring (start stop : Nat) : Except Failure Buffer :=
  if stop < start then
    .error .indexOutOfBoundsException
  else
    (stdSubstr mString start (sizeSub stop start)).map newString

def toString : Buffer :=
  newString mString

/-- A call of a method. -/
inductive Operation where
  | append (value : Value)
  | appendByteArray (charSequence : List UInt8)
  | appendCString (string : List UInt8)
  | appendChars (string : List UInt8) (size : Nat)
  | appendSubarray (charSequence : List UInt8) (offset size : Nat)
  | appendString (string : Buffer)
  | deleteRange (start stop : Nat)
  | deleteCharAt (index : Nat)
  | insert (offset : Nat) (value : Value)
  | insertByteArray (offset : Nat) (charSequence : List UInt8)
  | insertSubarray (index : Nat) (charSequence : List UInt8) (offset size : Nat)
  | insertString (offset : Nat) (string : Buffer)
  | replace (start stop : Nat) (string : Buffer)
  | reverse
  | setCharAt (index : Nat) (c : UInt8)
  | setLength (newLength : Nat)
  | substringFrom (start : Nat)
  | substring (start stop : Nat)
  | toString

/-- A call that returns the builder itself. -/
def itself (mString : List UInt8) : Option Buffer × List UInt8 :=
  (none, mString)

/-- A call that returns a string. -/
def returning (mString : List UInt8) (string : Buffer) : Option Buffer × List UInt8 :=
  (some string, mString)

/-- Call a method: the string that it returns, and the characters afterwards. -/
def call : Operation → Except Failure (Option Buffer × List UInt8)
  | .append value => .ok (itself (append mString value))
  | .appendByteArray charSequence => .ok (itself (appendByteArray mString charSequence))
  | .appendCString string => .ok (itself (appendCString mString string))
  | .appendChars string size => (appendChars mString string size).map itself
  | .appendSubarray charSequence offset size =>
      (appendSubarray mString charSequence offset size).map itself
  | .appendString string => (appendString mString string).map itself
  | .deleteRange start stop => (deleteRange mString start stop).map itself
  | .deleteCharAt index => (deleteCharAt mString index).map itself
  | .insert offset value => (insert mString offset value).map itself
  | .insertByteArray offset charSequence =>
      (insertByteArray mString offset charSequence).map itself
  | .insertSubarray index charSequence offset size =>
      (insertSubarray mString index charSequence offset size).map itself
  | .insertString offset string => (insertString mString offset string).map itself
  | .replace start stop string => (replace mString start stop string).map itself
  | .reverse => .ok (itself (reverse mString))
  | .setCharAt index c => (setCharAt mString index c).map itself
  | .setLength newLength => .ok (itself (setLength mString newLength))
  | .substringFrom start => (substringFrom mString start).map (returning mString)
  | .substring start stop => (substring mString start stop).map (returning mString)
  | .toString => .ok (returning mString (toString mString))

/-! ## Lists of characters -/

/-- A string of characters that has memory. -/
def stringOf (chars : List UInt8) : Buffer :=
  ⟨some chars⟩

/-- What a call does to a list of characters. -/
def act (text : List UInt8) : Operation → Option Buffer × List UInt8
  | .append value => itself (text ++ value.text)
  | .appendByteArray charSequence => itself (text ++ charSequence)
  | .appendCString string => itself (text ++ cStr string)
  | .appendChars string size => itself (text ++ string.take size)
  | .appendSubarray charSequence offset size =>
      itself (text ++ (charSequence.drop offset).take size)
  | .appendString string => itself (text ++ string.bytes)
  | .deleteRange start stop => itself (splice text start stop [])
  | .deleteCharAt index => itself (text.eraseIdx index)
  | .insert offset value => itself (splice text offset offset value.text)
  | .insertByteArray offset charSequence => itself (splice text offset offset charSequence)
  | .insertSubarray index charSequence offset size =>
      itself (splice text index index ((charSequence.drop offset).take size))
  | .insertString offset string => itself (splice text offset offset string.bytes)
  | .replace start stop string => itself (splice text start stop string.bytes)
  | .reverse => itself text.reverse
  | .setCharAt index c => itself (text.set index c)
  | .setLength newLength =>
      itself (text.take newLength ++ List.replicate (newLength - text.length) 0)
  | .substringFrom start => returning text (stringOf (text.drop start))
  | .substring start stop => returning text (stringOf ((text.drop start).take (stop - start)))
  | .toString => returning text (stringOf text)

/-- The indices of a call are in the ranges of the text and of the passed array. -/
def InRange (text : List UInt8) : Operation → Prop
  | .appendChars string size => size ≤ string.length
  | .appendSubarray charSequence offset size => offset + size ≤ charSequence.length
  | .deleteRange start stop => start ≤ stop ∧ stop ≤ text.length
  | .deleteCharAt index => index < text.length
  | .insert offset _ => offset ≤ text.length
  | .insertByteArray offset _ => offset ≤ text.length
  | .insertSubarray index charSequence offset size =>
      index ≤ text.length ∧ offset + size ≤ charSequence.length
  | .insertString offset _ => offset ≤ text.length
  | .replace start stop _ => start ≤ stop ∧ stop ≤ text.length
  | .setCharAt index _ => index < text.length
  | .substringFrom start => start ≤ text.length
  | .substring start stop => start ≤ stop ∧ stop ≤ text.length
  | _ => True

/-- A string that a C string is all of. -/
def IsCString (string : Buffer) : Prop :=
  ∃ bytes, string.mData = some bytes ∧ ∀ c ∈ bytes, c ≠ 0

/-- No NUL is in a string that comes in or goes out, and a part of an array is inserted where it
could as well be inserted at its offset in the array. -/
def Suits (text : List UInt8) : Operation → Prop
  | .appendString string => IsCString string
  | .insertSubarray index charSequence offset size =>
      let part := (charSequence.drop offset).take size
      offset ≤ text.length ∧ part ++ between text offset index = between text offset index ++ part
  | .insertString _ string => IsCString string
  | .replace _ _ string => IsCString string
  | .substringFrom start => ∀ c ∈ text.drop start, c ≠ 0
  | .substring start stop => ∀ c ∈ (text.drop start).take (stop - start), c ≠ 0
  | .toString => ∀ c ∈ text, c ≠ 0
  | _ => True

/-! ## What single calls do -/

section Single

variable {mString : List UInt8}

theorem stdInsert_ok {pos : Nat} (inside : pos ≤ mString.length) (part : List UInt8) :
    stdInsert mString pos part = .ok (splice mString pos pos part) :=
  if_neg (Nat.not_lt.mpr inside)

/-- A range within a string is replaced. -/
theorem stdReplace_ok {start stop : Nat} (ordered : start ≤ stop) (inside : stop ≤ mString.length)
    (part : List UInt8) :
    stdReplace mString start (sizeSub stop start) part = .ok (splice mString start stop part) := by
  have size : sizeSub stop start = stop - start := if_pos ordered
  have range : start + min (stop - start) (mString.length - start) = stop := by omega
  rw [stdReplace, if_neg (by omega), size, range]

theorem stdSubstr_ok {pos : Nat} (inside : pos ≤ mString.length) (n : Nat) :
    stdSubstr mString pos n = .ok ((mString.drop pos).take n) :=
  if_neg (Nat.not_lt.mpr inside)

theorem readArray_ok {array : List UInt8} {offset size : Nat}
    (inside : offset + size ≤ array.length) :
    readArray array offset size = .ok ((array.drop offset).take size) :=
  if_pos inside

/-- What is left of an array is enough for a range within it. -/
theorem sizeSub_ge {size offset range : Nat} (inside : offset + range ≤ size) :
    range ≤ sizeSub size offset := by
  rw [sizeSub, if_pos (by omega)]
  omega

theorem readString_eq_iff (string : Buffer) :
    readString string = .ok string.bytes ↔ IsCString string := by
  unfold readString IsCString Buffer.bytes
  cases string.mData with
  | none => simp
  | some bytes => simp [cStr, List.takeWhile_eq_self_iff]

theorem newString_eq (chars : List UInt8) : newString chars = stringOf (cStr chars) := by
  change (if (cStr chars).length > 0 then ⟨some (cStr chars)⟩ else Buffer.emptyStringBuffer) = _
  split
  · rfl
  · rename_i empty
    rw [stringOf, List.eq_nil_of_length_eq_zero (Nat.eq_zero_of_not_pos empty)]
    rfl

theorem newString_eq_iff (chars : List UInt8) :
    newString chars = stringOf chars ↔ ∀ c ∈ chars, c ≠ 0 := by
  simp [newString_eq, stringOf, cStr, List.takeWhile_eq_self_iff]

theorem itself_inj {other : List UInt8} : itself mString = itself other ↔ mString = other := by
  simp [itself]

theorem returning_inj {string other : Buffer} :
    returning mString string = returning mString other ↔ string = other := by
  simp [returning]

/-- What comes from a string is as it is to be if all of the string is read. -/
theorem map_readString_eq_iff {f : List UInt8 → List UInt8} (injective : Function.Injective f)
    (string : Buffer) :
    ((readString string).map f).map itself = .ok (itself (f string.bytes)) ↔
      IsCString string := by
  rw [← readString_eq_iff]
  cases readString string with
  | error failure => simp [Except.map]
  | ok part => simp [Except.map, itself_inj, injective.eq_iff]

/-- A call does to the characters what it does to a list, if and only if it suits. -/
theorem call_eq_act_iff (text : List UInt8) (operation : Operation)
    (inRange : InRange text operation) :
    call text operation = .ok (act text operation) ↔ Suits text operation := by
  cases operation with
  | append value => exact iff_of_true rfl trivial
  | appendByteArray charSequence => exact iff_of_true rfl trivial
  | appendCString string => exact iff_of_true rfl trivial
  | appendChars string size =>
      refine iff_of_true ?_ trivial
      have inside : 0 + size ≤ string.length := by
        rw [Nat.zero_add]
        exact inRange
      rw [call, appendChars, readArray_ok inside]
      rfl
  | appendSubarray charSequence offset size =>
      refine iff_of_true ?_ trivial
      rw [call, appendSubarray, Nat.min_eq_right (sizeSub_ge inRange), readArray_ok inRange]
      rfl
  | appendString string => exact map_readString_eq_iff (List.append_right_injective text) string
  | deleteRange start stop =>
      refine iff_of_true ?_ trivial
      rw [call, deleteRange, stdErase, stdReplace_ok inRange.1 inRange.2]
      rfl
  | deleteCharAt index =>
      refine iff_of_true ?_ trivial
      have one : sizeSub (index + 1) index = 1 := by
        rw [sizeSub, if_pos (Nat.le_succ index), Nat.add_sub_cancel_left]
      have erased := stdReplace_ok (Nat.le_succ index) inRange []
      rw [one] at erased
      rw [call, deleteCharAt, stdErase, erased, act, List.eraseIdx_eq_take_drop_succ]
      rfl
  | insert offset value =>
      refine iff_of_true ?_ trivial
      rw [call, insert, stdInsert_ok inRange]
      rfl
  | insertByteArray offset charSequence =>
      refine iff_of_true ?_ trivial
      rw [call, insertByteArray, stdInsert_ok inRange]
      rfl
  | insertSubarray index charSequence offset size =>
      obtain ⟨inside, part⟩ := inRange
      rw [call, insertSubarray, Nat.min_eq_left (sizeSub_ge part), readArray_ok part, Suits, act]
      by_cases behind : offset > text.length
      · rw [if_pos behind]
        exact iff_of_false nofun fun suits => Nat.not_lt.mpr suits.1 behind
      · rw [if_neg behind]
        have placed := Nat.not_lt.mp behind
        refine Iff.trans ?_ (and_iff_right placed).symm
        rw [← splice_eq_iff]
        change (stdInsert text offset _).map itself = _ ↔ _
        rw [stdInsert_ok placed]
        simp [Except.map, itself_inj]
  | insertString offset string =>
      have inserts : insertString text offset string =
          (readString string).map (splice text offset offset) := by
        unfold insertString
        cases readString string with
        | error failure => rfl
        | ok part => exact stdInsert_ok inRange part
      rw [call, inserts]
      exact map_readString_eq_iff (fun _ _ => splice_inj.mp) string
  | replace start stop string =>
      have replaces : replace text start stop string =
          (readString string).map (splice text start stop) := by
        unfold replace
        cases readString string with
        | error failure => rfl
        | ok part => exact stdReplace_ok inRange.1 inRange.2 part
      rw [call, replaces]
      exact map_readString_eq_iff (fun _ _ => splice_inj.mp) string
  | reverse => exact iff_of_true rfl trivial
  | setCharAt index c =>
      refine iff_of_true ?_ trivial
      rw [call, setCharAt, if_neg (Nat.not_le.mpr inRange)]
      rfl
  | setLength newLength => exact iff_of_true rfl trivial
  | substringFrom start =>
      have whole : (text.drop start).take text.length = text.drop start :=
        List.take_of_length_le (by simp)
      rw [call, substringFrom, stdSubstr_ok inRange, whole, Suits, ← newString_eq_iff, act]
      simp [Except.map, returning_inj]
  | substring start stop =>
      have size : sizeSub stop start = stop - start := if_pos inRange.1
      rw [call, substring, if_neg (Nat.not_lt.mpr inRange.1), size,
        stdSubstr_ok (Nat.le_trans inRange.1 inRange.2), Suits, ← newString_eq_iff, act]
      simp [Except.map, returning_inj]
  | toString =>
      rw [call, toString, Suits, ← newString_eq_iff, act]
      simp [returning_inj]

end Single

/-- A string builder behaves like a list of characters in a sequence of calls, if and only if
every call suits the characters that it is made for. -/
theorem behaves_iff {text : List UInt8} {operations : List Operation}
    (inRange : Permitted act InRange text operations) :
    attempts call text operations = .ok (history act text operations) ↔
      Permitted act Suits text operations :=
  attempts_eq_history_iff call_eq_act_iff inRange

/-- The range from 1 to 2 of "abc" is replaced by "xy". -/
theorem behaves_iff_replaced :
    attempts call [97, 98, 99] [.replace 1 2 (stringOf [120, 121]), .toString] =
      .ok [itself [97, 120, 121, 99], returning [97, 120, 121, 99]
        (stringOf [97, 120, 121, 99])] := by
  have visible : ∀ c ∈ ([97, 120, 121, 99] : List UInt8), c ≠ 0 := by simp
  have inRange : Permitted act InRange [97, 98, 99]
      [.replace 1 2 (stringOf [120, 121]), .toString] :=
    ⟨⟨by decide, by decide⟩, trivial, trivial⟩
  exact (behaves_iff inRange).mpr ⟨⟨_, rfl, by simp⟩, visible, trivial⟩

/-- The part "y" of "xy" that is to be inserted in front of "abc" comes in at its offset in the
array, and a builder with a NUL gives what is before the NUL. -/
theorem inserted_at_offset_and_truncated :
    (Permitted act InRange [97, 98, 99] [.insertSubarray 0 [120, 121] 1 1] ∧
        attempts call [97, 98, 99] [.insertSubarray 0 [120, 121] 1 1] =
          .ok [itself [97, 121, 98, 99]] ∧
        history act [97, 98, 99] [.insertSubarray 0 [120, 121] 1 1] =
          [itself [121, 97, 98, 99]]) ∧
      Permitted act InRange [] [.appendByteArray [97, 0, 98], .toString] ∧
        attempts call [] [.appendByteArray [97, 0, 98], .toString] =
          .ok [itself [97, 0, 98], returning [97, 0, 98] (stringOf [97])] ∧
        history act [] [.appendByteArray [97, 0, 98], .toString] =
          [itself [97, 0, 98], returning [97, 0, 98] (stringOf [97, 0, 98])] :=
  ⟨⟨⟨⟨by decide, by decide⟩, trivial⟩, rfl, rfl⟩, ⟨trivial, trivial, trivial⟩, rfl, rfl⟩

end StringBuilder

end Mindroid
