import Mathlib.Data.Nat.Digits.Defs
import Mindroid.Foundation.Numerals
import Mindroid.Lang.String

/-!
# Numbers in strings

`Integer::valueOf` leaves the parsing to `strtol`, which clamps a number to 64 bits, and
keeps the low 32 bits of it.
-/

set_option autoImplicit false

namespace Mindroid

namespace Integer

/-- The value of a digit, in any radix. -/
def digitOf (c : UInt8) : Option Nat :=
  if 48 ≤ c ∧ c ≤ 57 then
    some (c.toNat - 48)
  else if 97 ≤ c ∧ c ≤ 122 then
    some (c.toNat - 87)
  else if 65 ≤ c ∧ c ≤ 90 then
    some (c.toNat - 55)
  else
    none

def isDigit (radix : Nat) (c : UInt8) : Bool :=
  match digitOf c with
  | none => false
  | some digit => digit < radix

/-- The sign of a number and what comes after it. -/
def sign : List UInt8 → Bool × List UInt8
  | [] => (false, [])
  | c :: rest =>
      if c = 45 then (true, rest) else if c = 43 then (false, rest) else (false, c :: rest)

/-- The digits after the prefix that the radix 16 may have. -/
def unprefixed (radix : Nat) : List UInt8 → List UInt8
  | zero :: x :: digit :: rest =>
      if radix = 16 ∧ zero = 48 ∧ (x = 120 ∨ x = 88) ∧ isDigit 16 digit = true then
        digit :: rest
      else
        zero :: x :: digit :: rest
  | string => string

/-- `strtol`: the number and what is behind it. -/
def strtol (string : List UInt8) (radix : Nat) : Int × List UInt8 :=
  let chars := String.cStr string
  let (negative, magnitude) := sign (chars.dropWhile String.isspace)
  let magnitude := unprefixed radix magnitude
  let digits := magnitude.takeWhile (isDigit radix)
  if digits = [] then
    (0, chars)
  else
    let value := digits.foldl (fun value c => value * radix + (digitOf c).getD 0) 0
    if negative then
      (max (-2 ^ 63) (-(value : Int)), magnitude.drop digits.length)
    else
      (min (2 ^ 63 - 1) (value : Int), magnitude.drop digits.length)

/-- `Integer::valueOf(string)`, which is that for the radix 10. -/
def valueOf (string : List UInt8) (radix : Nat) : Except Failure Int32 :=
  match string with
  | [] => .error (.numberFormatException (String.valueOf "String is null or empty"))
  | c :: _ =>
      let invalid : Failure := .numberFormatException
        (String.valueOf "Invalid integral value: " ++ String.cStr string)
      if String.isspace c then
        .error invalid
      else
        let (value, endptr) := strtol string radix
        if endptr = [] then .ok (Int32.ofInt value) else .error invalid

example : valueOf (String.valueOf "-2147483649") 10 = .ok 2147483647 := by decide +kernel

/-- Nothing but a `NumberFormatException` is thrown. -/
theorem valueOf_cases (string : List UInt8) (radix : Nat) :
    (∃ value, valueOf string radix = .ok value) ∨
      ∃ message, valueOf string radix = .error (.numberFormatException message) := by
  cases string with
  | nil => exact .inr ⟨_, rfl⟩
  | cons c rest =>
      by_cases space : String.isspace c = true
      · exact .inr ⟨_, by rw [valueOf, if_pos space]⟩
      · rcases parsed : strtol (c :: rest) radix with ⟨value, endptr⟩
        rw [valueOf, if_neg space, parsed]
        cases endptr with
        | nil => exact .inl ⟨_, rfl⟩
        | cons => exact .inr ⟨_, rfl⟩

/-! ## Decimal numbers -/

/-- The digits that `%u` prints, last one first. -/
def digits (n : Nat) : List Nat :=
  if n = 0 then [0] else Nat.digits 10 n

def digitChar (digit : Nat) : UInt8 :=
  UInt8.ofNat (48 + digit)

/-- What `%u` prints. -/
def decimal (n : Nat) : List UInt8 :=
  (digits n).reverse.map digitChar

theorem digits_lt (n : Nat) : ∀ digit ∈ digits n, digit < 10 := by
  intro digit member
  rw [digits] at member
  split at member
  · rcases List.mem_singleton.mp member with rfl
    decide
  · exact Nat.digits_lt_base (by decide) member

theorem digits_ne_nil (n : Nat) : digits n ≠ [] := by
  rw [digits]
  split
  · exact List.cons_ne_nil _ _
  · next positive => exact Nat.digits_ne_nil_iff_ne_zero.mpr positive

theorem ofDigits_digits (n : Nat) : Nat.ofDigits 10 (digits n) = n := by
  rw [digits]
  split
  · next zero => rw [zero, Nat.ofDigits_singleton]
  · exact Nat.ofDigits_digits 10 n

/-- What the functions that read a number find in a digit. -/
structure IsDigit (c : UInt8) (digit : Nat) : Prop where
  value : digitOf c = some digit
  isDigit : isDigit 10 c = true
  unsigned : c ≠ 45 ∧ c ≠ 43
  notSpace : String.isspace c = false
  nonzero : c ≠ 0

theorem digitChar_isDigit {digit : Nat} (bounded : digit < 10) :
    IsDigit (digitChar digit) digit := by
  have all : ∀ digit < 10, digitOf (digitChar digit) = some digit ∧
      isDigit 10 (digitChar digit) = true ∧ (digitChar digit ≠ 45 ∧ digitChar digit ≠ 43) ∧
      String.isspace (digitChar digit) = false ∧ digitChar digit ≠ 0 := by
    decide
  rcases all digit bounded with ⟨value, isDigit, unsigned, notSpace, nonzero⟩
  exact ⟨value, isDigit, unsigned, notSpace, nonzero⟩

theorem mem_decimal {n : Nat} {c : UInt8} (member : c ∈ decimal n) :
    ∃ digit < 10, c = digitChar digit := by
  rcases List.mem_map.mp member with ⟨digit, isDigit, rfl⟩
  exact ⟨digit, digits_lt n digit (List.mem_reverse.mp isDigit), rfl⟩

theorem decimal_isDigit {n : Nat} {c : UInt8} (member : c ∈ decimal n) :
    ∃ digit, IsDigit c digit := by
  rcases mem_decimal member with ⟨digit, bounded, rfl⟩
  exact ⟨digit, digitChar_isDigit bounded⟩

theorem decimal_ne_nil (n : Nat) : decimal n ≠ [] := by
  rw [decimal, ne_eq, List.map_eq_nil_iff, List.reverse_eq_nil_iff]
  exact digits_ne_nil n

/-- The loop of `strtol` puts the digits together. -/
theorem foldl_digits {digits : List Nat} (bounded : ∀ digit ∈ digits, digit < 10) :
    (digits.reverse.map digitChar).foldl (fun value c => value * 10 + (digitOf c).getD 0) 0 =
      Nat.ofDigits 10 digits := by
  have values : (digits.reverse.map digitChar).map digitOf = digits.reverse.map some := by
    rw [List.map_map]
    apply List.map_congr_left
    intro digit member
    exact (digitChar_isDigit (bounded digit (List.mem_reverse.mp member))).value
  have together := @Foundation.positional_eq _ digitOf 10 _ _ values
  rwa [List.reverse_reverse] at together

theorem decimal_injective : Function.Injective decimal := by
  intro first second same
  have values := congrArg (List.foldl (fun value c => value * 10 + (digitOf c).getD 0) 0) same
  rwa [decimal, decimal, foldl_digits (digits_lt first), foldl_digits (digits_lt second),
    ofDigits_digits, ofDigits_digits] at values

/-- Only the radix 16 has a prefix. -/
theorem unprefixed_ten (string : List UInt8) : unprefixed 10 string = string := by
  rcases string with _ | ⟨zero, _ | ⟨x, _ | ⟨digit, rest⟩⟩⟩
  · rfl
  · rfl
  · rfl
  · rw [unprefixed, if_neg]
    rintro ⟨radix, _⟩
    cases radix

theorem nonzero_decimal (n : Nat) : ∀ c ∈ decimal n, c ≠ 0 := by
  intro c member
  rcases decimal_isDigit member with ⟨_, isDigit⟩
  exact isDigit.nonzero

theorem takeWhile_decimal (n : Nat) : (decimal n).takeWhile (isDigit 10) = decimal n := by
  apply List.takeWhile_eq_self_iff.mpr
  intro c member
  rcases decimal_isDigit member with ⟨digit, isDigit⟩
  exact isDigit.isDigit

theorem strtol_decimal {n : Nat} (bounded : n < 2 ^ 63) :
    strtol (decimal n) 10 = ((n : Int), []) := by
  have chars : String.cStr (decimal n) = decimal n := String.cStr_of_nonzero (nonzero_decimal n)
  have value := foldl_digits (digits_lt n)
  rw [ofDigits_digits] at value
  change (decimal n).foldl _ 0 = n at value
  have start : sign ((decimal n).dropWhile String.isspace) = (false, decimal n) := by
    cases shape : decimal n with
    | nil => exact absurd shape (decimal_ne_nil n)
    | cons c rest =>
        rcases decimal_isDigit (shape ▸ List.mem_cons_self) with ⟨digit, isDigit⟩
        rw [List.dropWhile_cons_of_neg (by rw [isDigit.notSpace]; exact Bool.false_ne_true), sign,
          if_neg isDigit.unsigned.1, if_neg isDigit.unsigned.2]
  rw [strtol, chars, start]
  dsimp only
  rw [unprefixed_ten, takeWhile_decimal, if_neg (decimal_ne_nil n), if_neg Bool.false_ne_true, value,
    List.drop_length]
  congr 1
  omega

/-- A number that was printed is read again, as far as it fits. -/
theorem valueOf_decimal {n : Nat} (bounded : n < 2 ^ 63) :
    valueOf (decimal n) 10 = .ok (Int32.ofInt n) := by
  have parsed := strtol_decimal bounded
  cases shape : decimal n with
  | nil => exact absurd shape (decimal_ne_nil n)
  | cons c rest =>
      rcases decimal_isDigit (shape ▸ List.mem_cons_self) with ⟨digit, isDigit⟩
      rw [shape] at parsed
      rw [valueOf, isDigit.notSpace, parsed]
      rfl

/-- `std::to_string`. -/
def toString (value : Int32) : List UInt8 :=
  if value.toInt < 0 then
    45 :: decimal value.toInt.natAbs
  else
    decimal value.toInt.natAbs

theorem valueOf_toString {value : Int32} (nonnegative : ¬value.toInt < 0) :
    valueOf (toString value) 10 = .ok value := by
  have bound := Int32.toInt_lt value
  have magnitude : (value.toInt.natAbs : Int) = value.toInt :=
    Int.natAbs_of_nonneg (Int.not_lt.mp nonnegative)
  rw [toString, if_neg nonnegative, valueOf_decimal (by omega), magnitude, Int32.ofInt_toInt]

theorem strtol_negative {n : Nat} (bounded : n ≤ 2 ^ 63) :
    strtol (45 :: decimal n) 10 = (-(n : Int), []) := by
  have chars : String.cStr (45 :: decimal n) = 45 :: decimal n :=
    String.cStr_of_nonzero (List.forall_mem_cons.mpr ⟨by decide, nonzero_decimal n⟩)
  have value := foldl_digits (digits_lt n)
  rw [ofDigits_digits] at value
  change (decimal n).foldl _ 0 = n at value
  have start : sign ((45 :: decimal n).dropWhile String.isspace) = (true, decimal n) := rfl
  rw [strtol, chars, start]
  dsimp only
  rw [unprefixed_ten, takeWhile_decimal, if_neg (decimal_ne_nil n), if_pos rfl, value,
    List.drop_length]
  congr 1
  omega

/-- `sscanf` with `%d`, if it reads a number. -/
def scan (string : List UInt8) : Option Int32 :=
  let (value, endptr) := strtol string 10
  if endptr = String.cStr string then none else some (Int32.ofInt value)

/-- `strtoul`: the number, below zero as its complement, and what is behind it. -/
def strtoul (string : List UInt8) (radix : Nat) : UInt64 × List UInt8 :=
  let chars := String.cStr string
  let (negative, magnitude) := sign (chars.dropWhile String.isspace)
  let magnitude := unprefixed radix magnitude
  let digits := magnitude.takeWhile (isDigit radix)
  if digits = [] then
    (0, chars)
  else
    let value := digits.foldl (fun value c => value * radix + (digitOf c).getD 0) 0
    let rest := magnitude.drop digits.length
    if value < 2 ^ 64 then
      (if negative then -UInt64.ofNat value else UInt64.ofNat value, rest)
    else
      (UInt64.ofNat (2 ^ 64 - 1), rest)

/-- `sscanf` with `%u`, if it reads a number. -/
def scanUnsigned (string : List UInt8) : Option UInt32 :=
  let (value, endptr) := strtoul string 10
  if endptr = String.cStr string then none else some value.toUInt32

/-- What was printed with `%d` is read with `%d`. -/
theorem scan_toString (value : Int32) : scan (toString value) = some value := by
  have low := Int32.le_toInt value
  have high := Int32.toInt_lt value
  have some_of_read : ∀ {text : List UInt8} {number : Int}, text ≠ [] → (∀ c ∈ text, c ≠ 0) →
      strtol text 10 = (number, []) → scan text = some (Int32.ofInt number) := by
    intro text number filled nonzero read
    rw [scan, read]
    dsimp only
    rw [String.cStr_of_nonzero nonzero, if_neg filled.symm]
  rw [toString]
  split
  case isTrue negative =>
    have magnitude : -(value.toInt.natAbs : Int) = value.toInt := by omega
    rw [some_of_read (List.cons_ne_nil _ _)
      (List.forall_mem_cons.mpr ⟨by decide, nonzero_decimal _⟩) (strtol_negative (by omega)),
      magnitude, Int32.ofInt_toInt]
  case isFalse nonnegative =>
    have magnitude : (value.toInt.natAbs : Int) = value.toInt := by omega
    rw [some_of_read (decimal_ne_nil _) (nonzero_decimal _) (strtol_decimal (by omega)),
      magnitude, Int32.ofInt_toInt]

/-- The low 32 bits of a number are kept. -/
theorem ofInt_toNat (value : UInt32) : Int32.ofInt (value.toNat : Int) = value.toInt32 := by
  apply Int32.toBitVec_inj.mp
  change BitVec.ofInt 32 (value.toNat : Int) = value.toBitVec
  rw [BitVec.ofInt_natCast]
  exact (BitVec.ofNat_toNat 32 value.toBitVec).trans (BitVec.setWidth_eq _)

end Integer

end Mindroid
