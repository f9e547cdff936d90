import Mindroid.Lang.Integer
import Mindroid.Lang.StringKeys

/-!
# Integral values of strings

`Byte`, `Short`, `Integer` and `Long` read a string in the same way: `strtol` clamps the number
to 64 bits, and the assignment keeps the low bits of it.
-/

set_option autoImplicit false

namespace Mindroid

open Foundation

/-- `valueOf(string, radix)` of a class with this type. -/
def integralValueOf {α : Type} (assign : Int → α) (string : List UInt8) (radix : Nat) :
    Except Failure α :=
  match string with
  | [] => .error (.numberFormatException (String.valueOf "String is null or empty"))
  | c :: _ =>
      let invalid : Failure := .numberFormatException
        (String.valueOf "Invalid integral value: " ++ String.cStr string)
      if String.isspace c then
        .error invalid
      else
        let (value, endptr) := Integer.strtol string radix
        if endptr = [] then .ok (assign value) else .error invalid

def Byte.valueOf (string : List UInt8) (radix : Nat) : Except Failure Int8 :=
  integralValueOf Int8.ofInt string radix

def Short.valueOf (string : List UInt8) (radix : Nat) : Except Failure Int16 :=
  integralValueOf Int16.ofInt string radix

theorem Integer.valueOf_eq (string : List UInt8) (radix : Nat) :
    Integer.valueOf string radix = integralValueOf Int32.ofInt string radix := by
  cases string <;> rfl

/-- A `long` has the 64 bits of the value. -/
def Long.valueOf (string : List UInt8) (radix : Nat) : Except Failure Int64 :=
  integralValueOf Int64.ofInt string radix

/-- The classes. -/
inductive IntegralType where
  | byte
  | short
  | integer
  | long
  deriving DecidableEq, Repr

namespace IntegralType

def width : IntegralType → Nat
  | byte => 8
  | short => 16
  | integer => 32
  | long => 64

/-- From `MIN_VALUE` to `MAX_VALUE`. -/
def InRange (type : IntegralType) (n : Int) : Prop :=
  -2 ^ (type.width - 1) ≤ n ∧ n < 2 ^ (type.width - 1)

instance (type : IntegralType) (n : Int) : Decidable (type.InRange n) :=
  inferInstanceAs (Decidable (_ ∧ _))

def valueOf (type : IntegralType) (string : List UInt8) (radix : Nat) : Except Failure Int :=
  match type with
  | byte => (Byte.valueOf string radix).map Int8.toInt
  | short => (Short.valueOf string radix).map Int16.toInt
  | integer => (Integer.valueOf string radix).map Int32.toInt
  | long => (Long.valueOf string radix).map Int64.toInt

end IntegralType

namespace Integer

open IntegralType (InRange)

/-! ## What a number is in a string -/

/-- The radices that `strtol` has digits for. -/
structure Radix where
  value : Nat
  atLeast : 2 ≤ value
  atMost : value ≤ 36

/-- A number without sign. -/
inductive Magnitude (radix : Nat) : List UInt8 → Nat → Prop where
  | digits {chars : List UInt8} {n : Nat} :
      Digits digitOf radix chars n → Magnitude radix chars n
  | prefixed {x : UInt8} {chars : List UInt8} {n : Nat} :
      radix = 16 → x = 120 ∨ x = 88 → Digits digitOf radix chars n →
        Magnitude radix (48 :: x :: chars) n

inductive Numeral (radix : Nat) : List UInt8 → Int → Prop where
  | unsigned {chars : List UInt8} {n : Nat} :
      Magnitude radix chars n → Numeral radix chars n
  | positive {chars : List UInt8} {n : Nat} :
      Magnitude radix chars n → Numeral radix (43 :: chars) n
  | negative {chars : List UInt8} {n : Nat} :
      Magnitude radix chars n → Numeral radix (45 :: chars) (-n)

/-- The value of a number in the range of the type is returned, and an exception is thrown for
all other strings. -/
structure Reads (type : IntegralType) (string : String.Text) (radix : Radix) : Prop where
  returns : ∀ n, type.valueOf string.bytes radix.value = .ok n ↔
    Numeral radix.value string.bytes n ∧ InRange type n
  throws : (∀ n, Numeral radix.value string.bytes n → ¬InRange type n) →
    ∃ message, type.valueOf string.bytes radix.value = .error (.numberFormatException message)

/-! ## What `strtol` reads -/

section Strtol

variable {radix : Nat} {chars : List UInt8}

theorem isDigit_iff {c : UInt8} :
    isDigit radix c = true ↔ ∃ digit < radix, digitOf c = some digit := by
  rw [isDigit]
  cases digitOf c <;> simp

theorem Magnitude.head {c : UInt8} {n : Nat} (magnitude : Magnitude radix (c :: chars) n) :
    ∃ digit, digitOf c = some digit := by
  cases magnitude with
  | digits digits =>
      obtain ⟨digit, -, value⟩ := digits.head
      exact ⟨digit, value⟩
  | prefixed => exact ⟨0, rfl⟩

theorem magnitude_nil {n : Nat} : ¬Magnitude radix [] n := by
  rintro ⟨digits⟩
  exact digits.filled rfl

/-- The prefix is skipped if a digit is behind it. -/
theorem magnitude_iff {n : Nat} :
    Magnitude radix chars n ↔ Digits digitOf radix (unprefixed radix chars) n := by
  rcases chars with _ | ⟨zero, _ | ⟨x, _ | ⟨digit, rest⟩⟩⟩
  · exact iff_of_false magnitude_nil fun digits => digits.filled rfl
  · constructor
    · rintro ⟨digits⟩
      exact digits
    · exact .digits
  · constructor
    · intro magnitude
      cases magnitude with
      | digits digits => exact digits
      | prefixed _ _ digits => exact absurd rfl digits.filled
    · exact .digits
  · rw [unprefixed]
    split
    case isTrue skipped =>
      obtain ⟨rfl, rfl, isX, -⟩ := skipped
      constructor
      · intro magnitude
        cases magnitude with
        | digits digits =>
            obtain ⟨-, all, -⟩ := (digits_iff digitOf).mp digits
            obtain ⟨value, bounded, isValue⟩ :=
              all x (List.mem_cons_of_mem _ List.mem_cons_self)
            have letter : digitOf x = some 33 := by
              rcases isX with rfl | rfl <;> rfl
            rw [letter] at isValue
            cases isValue
            contradiction
        | prefixed _ _ digits => exact digits
      · exact .prefixed rfl isX
    case isFalse kept =>
      constructor
      · intro magnitude
        cases magnitude with
        | digits digits => exact digits
        | prefixed isHex isX digits =>
            have isDigit := isDigit_iff.mpr digits.head
            rw [isHex] at isDigit
            exact absurd ⟨isHex, rfl, isX, isDigit⟩ kept
      · exact .digits

theorem numeral_iff {n : Int} :
    Numeral radix chars n ↔
      ∃ m : Nat, Magnitude radix (sign chars).2 m ∧
        n = if (sign chars).1 then -(m : Int) else m := by
  constructor
  · intro numeral
    cases numeral with
    | @unsigned _ m magnitude =>
        cases chars with
        | nil => exact absurd magnitude magnitude_nil
        | cons c rest =>
            obtain ⟨digit, value⟩ := magnitude.head
            have notMinus : c ≠ 45 := by
              rintro rfl
              cases value
            have notPlus : c ≠ 43 := by
              rintro rfl
              cases value
            rw [sign, if_neg notMinus, if_neg notPlus]
            exact ⟨m, magnitude, rfl⟩
    | @positive _ m magnitude => exact ⟨m, magnitude, rfl⟩
    | @negative _ m magnitude => exact ⟨m, magnitude, rfl⟩
  · rintro ⟨m, magnitude, rfl⟩
    cases chars with
    | nil => exact absurd magnitude magnitude_nil
    | cons c rest =>
        rw [sign] at magnitude ⊢
        split at magnitude
        case isTrue isMinus =>
          rw [if_pos isMinus, isMinus]
          exact .negative magnitude
        case isFalse notMinus =>
          rw [if_neg notMinus]
          split at magnitude
          case isTrue isPlus =>
            rw [if_pos isPlus, isPlus]
            exact .positive magnitude
          case isFalse notPlus =>
            rw [if_neg notPlus]
            exact .unsigned magnitude

theorem Numeral.unique {n m : Int} (numeral : Numeral radix chars n)
    (other : Numeral radix chars m) : n = m := by
  obtain ⟨size, magnitude, rfl⟩ := numeral_iff.mp numeral
  obtain ⟨again, others, rfl⟩ := numeral_iff.mp other
  rw [(magnitude_iff.mp magnitude).unique (magnitude_iff.mp others)]

/-- No number begins with white space. -/
theorem Numeral.head {c : UInt8} {n : Int} (numeral : Numeral radix (c :: chars) n) :
    String.isspace c = false := by
  cases numeral with
  | unsigned magnitude =>
      obtain ⟨digit, value⟩ := magnitude.head
      rw [digitOf] at value
      rw [String.isspace]
      split at value
      · grind
      · split at value
        · grind
        · split at value
          · grind
          · cases value
  | positive => rfl
  | negative => rfl

/-- The number in the range of a `long` that is closest. -/
def clamp (n : Int) : Int :=
  max (-2 ^ 63) (min (2 ^ 63 - 1) n)

theorem takeWhile_isDigit_iff :
    chars.takeWhile (isDigit radix) = chars ↔
      ∀ c ∈ chars, ∃ digit < radix, digitOf c = some digit := by
  simp only [List.takeWhile_eq_self_iff, isDigit_iff]

theorem clamp_natCast (m : Nat) : clamp m = min (2 ^ 63 - 1) (m : Int) := by
  rw [clamp]
  omega

theorem clamp_neg (m : Nat) : clamp (-m) = max (-2 ^ 63) (-(m : Int)) := by
  rw [clamp]
  omega

/-- `strtol` reads all characters of a string if and only if they are a number. -/
theorem strtol_eq_iff (nonzero : ∀ c ∈ chars, c ≠ 0) (filled : chars ≠ [])
    (unspaced : chars.dropWhile String.isspace = chars) {value : Int} :
    strtol chars radix = (value, []) ↔ ∃ n, Numeral radix chars n ∧ value = clamp n := by
  have visible := String.cStr_of_nonzero nonzero
  simp only [numeral_iff, magnitude_iff, digits_iff, ← takeWhile_isDigit_iff]
  rw [strtol, visible, unspaced]
  generalize sign chars = parts
  rcases parts with ⟨negative, magnitude⟩
  dsimp only
  generalize unprefixed radix magnitude = magnitude
  by_cases all : magnitude.takeWhile (isDigit radix) = magnitude
  · simp only [all, true_and, List.drop_length]
    split
    case isTrue empty =>
      constructor
      · intro read
        exact absurd (congrArg Prod.snd read) filled
      · rintro ⟨n, ⟨m, ⟨some, -⟩, -⟩, -⟩
        exact absurd empty some
    case isFalse some =>
      rw [← positional, ← clamp_neg, ← clamp_natCast]
      generalize positional digitOf radix magnitude = m
      constructor
      · intro read
        refine ⟨_, ⟨m, ⟨some, rfl⟩, rfl⟩, ?_⟩
        cases negative with
        | true => exact (congrArg Prod.fst read).symm
        | false => exact (congrArg Prod.fst read).symm
      · rintro ⟨n, ⟨_, ⟨-, rfl⟩, rfl⟩, rfl⟩
        cases negative with
        | true => rfl
        | false => rfl
  · have left : magnitude.drop (magnitude.takeWhile (isDigit radix)).length ≠ [] := by
      intro none
      rw [List.drop_eq_nil_iff] at none
      exact all ((List.takeWhile_prefix _).eq_of_length_le none)
    refine iff_of_false ?_ ?_
    · intro read
      have ends := congrArg Prod.snd read
      split at ends
      · exact filled ends
      · split at ends
        · exact left ends
        · exact left ends
    · rintro ⟨n, ⟨m, ⟨-, whole, -⟩, -⟩, -⟩
      exact all whole

end Strtol

/-! ## When the value is returned -/

section Values

variable {α : Type} {assign : Int → α}

theorem integralValueOf_cases (string : List UInt8) (radix : Nat) :
    (∃ value, integralValueOf assign string radix = .ok value) ∨
      ∃ message,
        integralValueOf assign string radix = .error (.numberFormatException message) := by
  cases string with
  | nil => exact .inr ⟨_, rfl⟩
  | cons c rest =>
      rw [integralValueOf]
      split
      · exact .inr ⟨_, rfl⟩
      · dsimp only
        split
        · exact .inl ⟨_, rfl⟩
        · exact .inr ⟨_, rfl⟩

theorem integralValueOf_eq_ok_iff (text : String.Text) (radix : Nat) {value : α} :
    integralValueOf assign text.bytes radix = .ok value ↔
      ∃ n, Numeral radix text.bytes n ∧ value = assign (clamp n) := by
  rcases text with ⟨_ | ⟨c, rest⟩, nonzero⟩
  · refine iff_of_false (by rintro ⟨⟩) ?_
    rintro ⟨n, numeral, -⟩
    obtain ⟨m, magnitude, -⟩ := numeral_iff.mp numeral
    exact magnitude_nil magnitude
  · rw [integralValueOf]
    split
    case isTrue space =>
      refine iff_of_false (by rintro ⟨⟩) ?_
      rintro ⟨n, numeral, -⟩
      rw [numeral.head] at space
      cases space
    case isFalse unspaced =>
      have kept : (c :: rest).dropWhile String.isspace = c :: rest :=
        List.dropWhile_cons_of_neg unspaced
      have reads := fun value =>
        @strtol_eq_iff radix _ nonzero (List.cons_ne_nil c rest) kept value
      rcases parsed : strtol (c :: rest) radix with ⟨number, endptr⟩
      rw [parsed] at reads
      dsimp only
      constructor
      · intro returns
        split at returns
        case isTrue ends =>
          cases returns
          rw [ends] at reads
          obtain ⟨n, numeral, rfl⟩ := (reads number).mp rfl
          exact ⟨n, numeral, rfl⟩
        case isFalse => cases returns
      · rintro ⟨n, numeral, rfl⟩
        cases (reads (clamp n)).mpr ⟨n, numeral, rfl⟩
        rfl

theorem map_integralValueOf {β : Type} (f : α → β) (string : List UInt8) (radix : Nat) :
    (integralValueOf assign string radix).map f =
      integralValueOf (fun value => f (assign value)) string radix := by
  cases string with
  | nil => rfl
  | cons c rest =>
      rw [integralValueOf, integralValueOf]
      split
      · rfl
      · dsimp only
        split <;> rfl

/-- The value that is left of a number. -/
def kept (type : IntegralType) (n : Int) : Int :=
  (clamp n).bmod (2 ^ type.width)

variable {type : IntegralType}

/-- All of the classes keep the low bits of the number. -/
theorem valueOf_eq_integralValueOf (type : IntegralType) (string : List UInt8) (radix : Nat) :
    type.valueOf string radix =
      integralValueOf (fun value => value.bmod (2 ^ type.width)) string radix := by
  cases type with
  | byte => exact (map_integralValueOf _ _ _).trans (by simp only [Int8.toInt_ofInt]; rfl)
  | short => exact (map_integralValueOf _ _ _).trans (by simp only [Int16.toInt_ofInt]; rfl)
  | integer =>
      rw [IntegralType.valueOf, valueOf_eq]
      exact (map_integralValueOf _ _ _).trans (by simp only [Int32.toInt_ofInt]; rfl)
  | long => exact (map_integralValueOf _ _ _).trans (by simp only [Int64.toInt_ofInt]; rfl)

theorem valueOf_eq_ok_iff (text : String.Text) (radix : Nat) {value : Int} :
    type.valueOf text.bytes radix = .ok value ↔
      ∃ n, Numeral radix text.bytes n ∧ value = kept type n := by
  rw [valueOf_eq_integralValueOf, integralValueOf_eq_ok_iff]
  rfl

theorem inRange_iff {n : Int} : n.bmod (2 ^ type.width) = n ↔ InRange type n :=
  bmod_eq_self_iff (by cases type <;> decide)

theorem clamp_of_inRange {n : Int} (inRange : InRange type n) : clamp n = n := by
  obtain ⟨low, high⟩ := inRange
  rw [clamp]
  cases type <;>
    · simp only [IntegralType.width] at low high
      omega

/-- Exactly the numbers in the range are left as they are. -/
theorem kept_eq_self_iff {n : Int} : kept type n = n ↔ InRange type n := by
  constructor
  · intro same
    rw [← inRange_iff, ← same, kept, Int.bmod_bmod]
  · intro inRange
    rw [kept, clamp_of_inRange inRange]
    exact inRange_iff.mpr inRange

end Values

/-- A number that is read is in the range. -/
theorem Reads.inRange {type : IntegralType} {string : String.Text} {radix : Radix}
    (reads : Reads type string radix) {n : Int} (numeral : Numeral radix.value string.bytes n) :
    InRange type n := by
  have returned : type.valueOf string.bytes radix.value = .ok (kept type n) :=
    (valueOf_eq_ok_iff string radix.value).mpr ⟨n, numeral, rfl⟩
  obtain ⟨another, inRange⟩ := (reads.returns (kept type n)).mp returned
  rw [numeral.unique another]
  exact inRange

theorem not_reads_of_digits {type : IntegralType} {string : String.Text} {radix : Radix} {n : Nat}
    (digits : Digits digitOf radix.value string.bytes n) (outside : ¬InRange type n) :
    ¬Reads type string radix :=
  fun reads => outside (reads.inRange (.unsigned (.digits digits)))

/-- A string is read if and only if it is no number outside of the range. -/
theorem reads_iff (type : IntegralType) (string : String.Text) (radix : Radix) :
    Reads type string radix ↔ ∀ n, Numeral radix.value string.bytes n → InRange type n := by
  constructor
  · exact fun reads n => reads.inRange
  · intro all
    constructor
    · intro n
      rw [valueOf_eq_ok_iff]
      constructor
      · rintro ⟨m, numeral, rfl⟩
        rw [kept_eq_self_iff.mpr (all m numeral)]
        exact ⟨numeral, all m numeral⟩
      · rintro ⟨numeral, inRange⟩
        exact ⟨n, numeral, (kept_eq_self_iff.mpr inRange).symm⟩
    · intro outside
      rw [valueOf_eq_integralValueOf]
      rcases integralValueOf_cases string.bytes radix.value with ⟨value, returned⟩ | thrown
      · rw [← valueOf_eq_integralValueOf] at returned
        obtain ⟨n, numeral, -⟩ := (valueOf_eq_ok_iff string radix.value).mp returned
        exact absurd (all n numeral) (outside n numeral)
      · exact thrown

/-- Values behind the range come back from the other end, or as the greatest `long`. -/
theorem outOfRange_returned :
    let radix : Radix := ⟨10, by decide, by decide⟩
    let text := fun string => String.Text.valueOf (String.valueOf string)
    (IntegralType.byte.valueOf (text "128").bytes 10 = .ok (-128) ∧
        ¬Reads .byte (text "128") radix) ∧
      (IntegralType.short.valueOf (text "65536").bytes 10 = .ok 0 ∧
        ¬Reads .short (text "65536") radix) ∧
      (IntegralType.integer.valueOf (text "2147483648").bytes 10 = .ok (-2147483648) ∧
        ¬Reads .integer (text "2147483648") radix) ∧
      (IntegralType.long.valueOf (text "9223372036854775808").bytes 10 =
          .ok 9223372036854775807 ∧
        ¬Reads .long (text "9223372036854775808") radix) := by
  intro radix text
  refine ⟨⟨by decide +kernel, ?_⟩, ⟨by decide +kernel, ?_⟩, ⟨by decide +kernel, ?_⟩,
    by decide +kernel, ?_⟩
  · exact not_reads_of_digits ⟨by decide, [1, 2, 8], by decide, by decide, rfl⟩ (by decide)
  · exact not_reads_of_digits ⟨by decide, [6, 5, 5, 3, 6], by decide, by decide, rfl⟩ (by decide)
  · exact not_reads_of_digits
      ⟨by decide, [2, 1, 4, 7, 4, 8, 3, 6, 4, 8], by decide, by decide, rfl⟩ (by decide)
  · exact not_reads_of_digits
      ⟨by decide, [9, 2, 2, 3, 3, 7, 2, 0, 3, 6, 8, 5, 4, 7, 7, 5, 8, 0, 8], by decide, by decide,
        rfl⟩ (by decide)

end Integer

end Mindroid
