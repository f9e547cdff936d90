import Mindroid.Lang.StringKeys

/-!
# Comparing regions of strings

`regionMatches` compares the length of the region with differences of unsigned numbers, which wrap
around for an offset behind the end of a string, and then leaves the rest to `strncmp`.
-/

set_option autoImplicit false

namespace Mindroid

namespace String

/-- What ends a call of `regionMatches` that does not return: its exception, or an address outside
of a string. -/
inductive RegionFailure where
  | nullPointerException
  | outside
  deriving DecidableEq

/-- Whether `strncmp` finds no difference in what two pointers point to. -/
def strncmp : List UInt8 → List UInt8 → Nat → Except RegionFailure Bool
  | _, _, 0 => .ok true
  | c :: string, d :: other, len + 1 =>
      if c ≠ d then .ok false else if c = 0 then .ok true else strncmp string other len
  | _, _, _ + 1 => .error .outside

namespace Buffer

/-- What a pointer into a string points to.  There is a NUL behind the characters. -/
def memoryFrom (string : Buffer) (offset : Nat) : List UInt8 :=
  match string.mData with
  | none => []
  | some bytes => (bytes ++ [0]).drop offset

def regionMatches (string : Buffer) (toffset : UInt64) (other : Option Buffer)
    (ooffset len : UInt64) : Except RegionFailure Bool :=
  match other with
  | none => .error .nullPointerException
  | some other =>
      if sizeSub other.bytes.length ooffset.toNat < len.toNat then
        .ok false
      else if sizeSub string.bytes.length toffset.toNat < len.toNat then
        .ok false
      else if len ≤ 0 then
        .ok true
      else if string.mData ≠ none then
        strncmp (string.memoryFrom toffset.toNat) (other.memoryFrom ooffset.toNat) len.toNat
      else
        .ok false

/-- The regions are within the strings and of the same bytes. -/
def SameRegions (string : Buffer) (toffset : UInt64) (other : Buffer) (ooffset len : UInt64) :
    Prop :=
  toffset.toNat + len.toNat ≤ string.bytes.length ∧
    ooffset.toNat + len.toNat ≤ other.bytes.length ∧
      (string.bytes.drop toffset.toNat).take len.toNat =
        (other.bytes.drop ooffset.toNat).take len.toNat

/-- `regionMatches` stays inside of the strings and finds out whether the regions are the same. -/
def MatchesRegions (string : Buffer) (toffset : UInt64) (other : Buffer) (ooffset len : UInt64) :
    Prop :=
  ∃ answer, string.regionMatches toffset (some other) ooffset len = .ok answer ∧
    (answer = true ↔ string.SameRegions toffset other ooffset len)

/-- A region is refused that reaches behind the end, where an offset behind the end counts from
2^64 below. -/
def Refused (size offset len : Nat) : Prop :=
  if offset ≤ size then size < offset + len else 2 ^ 64 + size < offset + len

/-- Regions within the strings are the same or differ before a NUL, and an offset behind the end
of a string comes with a region that is refused. -/
def RegionsSuit (string : Buffer) (toffset : UInt64) (other : Buffer) (ooffset len : UInt64) :
    Prop :=
  if toffset.toNat ≤ string.bytes.length ∧ ooffset.toNat ≤ other.bytes.length then
    toffset.toNat + len.toNat ≤ string.bytes.length →
      ooffset.toNat + len.toNat ≤ other.bytes.length →
        let region := (string.bytes.drop toffset.toNat).take len.toNat
        let otherRegion := (other.bytes.drop ooffset.toNat).take len.toNat
        region = otherRegion ∨ DifferBeforeNul region otherRegion
  else
    Refused other.bytes.length ooffset.toNat len.toNat ∨
      Refused string.bytes.length toffset.toNat len.toNat ∨ string.mData = none ∧ 0 < len.toNat

end Buffer

/-! ## What `strncmp` reads -/

theorem sizeSub_lt_iff {size len : Nat} (offset : UInt64) :
    sizeSub size offset.toNat < len ↔ Buffer.Refused size offset.toNat len := by
  have bounded := offset.toNat_lt
  rw [sizeSub, Buffer.Refused]
  split <;> omega

/-- Regions of the same length are compared up to their first NUL. -/
theorem strncmp_regions {region other : List UInt8} (sameLength : region.length = other.length)
    (behind otherBehind : List UInt8) :
    strncmp (region ++ behind) (other ++ otherBehind) region.length =
      .ok (cStr region == cStr other) := by
  induction region generalizing other with
  | nil =>
      rw [List.eq_nil_of_length_eq_zero sameLength.symm, List.length_nil, strncmp]
      rfl
  | cons c region ih =>
      cases other with
      | nil => cases sameLength
      | cons d other =>
          rw [List.cons_append, List.cons_append, List.length_cons, strncmp, cStr_cons, cStr_cons]
          by_cases same : c = d
          · subst same
            by_cases isNul : c = 0
            · simp [isNul]
            · simp [isNul, ih (Nat.succ.inj sameLength)]
          · by_cases isNul : c = 0
            · have notNul : d ≠ 0 := fun equal => same (isNul.trans equal.symm)
              simp [isNul, notNul, notNul.symm]
            · by_cases otherNul : d = 0
              · simp [isNul, otherNul]
              · simp [same, isNul, otherNul]

theorem strncmp_outside {memory other : List UInt8} {len : Nat} (positive : 0 < len)
    (outside : memory = [] ∨ other = []) : strncmp memory other len = .error .outside := by
  cases len with
  | zero => exact absurd positive (Nat.lt_irrefl 0)
  | succ len =>
      rcases outside with rfl | rfl
      · rfl
      · cases memory <;> rfl

namespace Buffer

variable {string other : Buffer} {toffset ooffset len : UInt64}

/-- Behind the end of a string there is nothing to be read. -/
theorem memoryFrom_behind {offset : Nat} (behind : string.bytes.length < offset) :
    string.memoryFrom offset = [] := by
  unfold memoryFrom
  cases memory : string.mData with
  | none => rfl
  | some bytes =>
      rw [Buffer.bytes, memory] at behind
      apply List.drop_of_length_le
      rw [List.length_append, List.length_singleton]
      exact behind

/-- A region within a string, with what is behind it in the memory. -/
theorem memoryFrom_region {offset len : Nat} (inside : offset + len ≤ string.bytes.length)
    (present : string.mData ≠ none) :
    ∃ behind, string.memoryFrom offset = (string.bytes.drop offset).take len ++ behind := by
  obtain ⟨memory, isMemory⟩ := Option.ne_none_iff_exists'.mp present
  have isBytes : string.bytes = memory := by rw [bytes, isMemory, Option.getD_some]
  rw [isBytes] at inside ⊢
  refine ⟨(memory.drop offset).drop len ++ [0], ?_⟩
  rw [memoryFrom, isMemory, ← List.append_assoc, List.take_append_drop]
  exact List.drop_append_of_le_length (by omega)

theorem length_region {bytes : List UInt8} {offset len : Nat}
    (inside : offset + len ≤ bytes.length) : ((bytes.drop offset).take len).length = len := by
  rw [List.length_take, List.length_drop]
  omega

/-! ## When the regions are found -/

theorem not_sameRegions_of_refused
    (refused : Refused other.bytes.length ooffset.toNat len.toNat ∨
      Refused string.bytes.length toffset.toNat len.toNat) :
    ¬string.SameRegions toffset other ooffset len := by
  rintro ⟨inside, otherInside, -⟩
  unfold Refused at refused
  split at refused <;> split at refused <;> omega

theorem regionMatches_refused
    (refused : Refused other.bytes.length ooffset.toNat len.toNat ∨
      Refused string.bytes.length toffset.toNat len.toNat) :
    string.regionMatches toffset (some other) ooffset len = .ok false := by
  unfold regionMatches
  rcases refused with first | second
  · exact if_pos ((sizeSub_lt_iff ooffset).mpr first)
  · simp only [if_pos ((sizeSub_lt_iff toffset).mpr second), ite_self]

theorem regionMatches_accepted
    (accepted : ¬(Refused other.bytes.length ooffset.toNat len.toNat ∨
      Refused string.bytes.length toffset.toNat len.toNat)) :
    string.regionMatches toffset (some other) ooffset len =
      if len.toNat = 0 then .ok true
      else if string.mData = none then .ok false
      else strncmp (string.memoryFrom toffset.toNat) (other.memoryFrom ooffset.toNat)
        len.toNat := by
  obtain ⟨first, second⟩ := not_or.mp accepted
  have isEmpty : len ≤ 0 ↔ len.toNat = 0 := by
    rw [UInt64.le_iff_toNat_le]
    exact Nat.le_zero
  simp only [regionMatches, if_neg (mt (sizeSub_lt_iff ooffset).mp first),
    if_neg (mt (sizeSub_lt_iff toffset).mp second), isEmpty, ne_eq, ite_not]

/-- What is not refused and within the strings is compared up to the first NUL. -/
theorem regionMatches_inside (inside : toffset.toNat + len.toNat ≤ string.bytes.length)
    (otherInside : ooffset.toNat + len.toNat ≤ other.bytes.length) :
    string.regionMatches toffset (some other) ooffset len =
      .ok (cStr ((string.bytes.drop toffset.toNat).take len.toNat) ==
        cStr ((other.bytes.drop ooffset.toNat).take len.toNat)) := by
  have accepted : ¬(Refused other.bytes.length ooffset.toNat len.toNat ∨
      Refused string.bytes.length toffset.toNat len.toNat) := by
    unfold Refused
    split <;> split <;> omega
  have present : ∀ {text : Buffer} {offset : Nat}, len.toNat ≠ 0 →
      offset + len.toNat ≤ text.bytes.length → text.mData ≠ none := by
    intro text offset positive fits isNull
    rw [bytes, isNull, Option.getD_none, List.length_nil] at fits
    omega
  rw [regionMatches_accepted accepted]
  by_cases empty : len.toNat = 0
  · rw [if_pos empty, empty]
    rfl
  · obtain ⟨behind, memory⟩ := memoryFrom_region inside (present empty inside)
    obtain ⟨otherBehind, otherMemory⟩ := memoryFrom_region otherInside (present empty otherInside)
    have size := length_region inside
    have compared := strncmp_regions (size.trans (length_region otherInside).symm) behind
      otherBehind
    rw [size, ← memory, ← otherMemory] at compared
    rw [if_neg empty, if_neg (present empty inside), compared]

theorem matchesRegions_inside_iff (inside : toffset.toNat + len.toNat ≤ string.bytes.length)
    (otherInside : ooffset.toNat + len.toNat ≤ other.bytes.length) :
    string.MatchesRegions toffset other ooffset len ↔
      (string.bytes.drop toffset.toNat).take len.toNat =
          (other.bytes.drop ooffset.toNat).take len.toNat ∨
        DifferBeforeNul ((string.bytes.drop toffset.toNat).take len.toNat)
          ((other.bytes.drop ooffset.toNat).take len.toNat) := by
  rw [MatchesRegions, regionMatches_inside inside otherInside, differBeforeNul_iff, SameRegions]
  generalize (string.bytes.drop toffset.toNat).take len.toNat = region
  generalize (other.bytes.drop ooffset.toNat).take len.toNat = otherRegion
  constructor
  · rintro ⟨answer, returns, right⟩
    cases returns
    by_cases same : region = otherRegion
    · exact .inl same
    · refine .inr fun equal => same ?_
      exact (right.mp (beq_iff_eq.mpr equal)).2.2
  · intro known
    refine ⟨_, rfl, ?_⟩
    rw [beq_iff_eq]
    rcases known with same | different
    · exact iff_of_true (congrArg cStr same) ⟨inside, otherInside, same⟩
    · exact iff_of_false different fun all => different (congrArg cStr all.2.2)

/-- An offset behind the end is used, if it is not refused. -/
theorem matchesRegions_behind_iff
    (behind : ¬(toffset.toNat ≤ string.bytes.length ∧ ooffset.toNat ≤ other.bytes.length)) :
    string.MatchesRegions toffset other ooffset len ↔
      Refused other.bytes.length ooffset.toNat len.toNat ∨
        Refused string.bytes.length toffset.toNat len.toNat ∨
          string.mData = none ∧ 0 < len.toNat := by
  have different : ¬string.SameRegions toffset other ooffset len := by
    rintro ⟨inside, otherInside, -⟩
    omega
  by_cases refused : Refused other.bytes.length ooffset.toNat len.toNat ∨
      Refused string.bytes.length toffset.toNat len.toNat
  · rw [MatchesRegions, regionMatches_refused refused, ← or_assoc]
    exact iff_of_true ⟨false, rfl, iff_of_false Bool.false_ne_true different⟩ (.inl refused)
  · rw [← or_assoc, or_iff_right refused, MatchesRegions]
    rw [regionMatches_accepted refused]
    by_cases empty : len.toNat = 0
    · rw [if_pos empty]
      refine iff_of_false ?_ fun known => Nat.lt_irrefl 0 (empty ▸ known.2)
      rintro ⟨answer, returns, right⟩
      cases returns
      exact different (right.mp rfl)
    · have positive : 0 < len.toNat := Nat.pos_of_ne_zero empty
      rw [if_neg empty]
      by_cases absent : string.mData = none
      · rw [if_pos absent]
        exact iff_of_true ⟨false, rfl, iff_of_false Bool.false_ne_true different⟩
          ⟨absent, positive⟩
      · have outside : string.memoryFrom toffset.toNat = [] ∨
            other.memoryFrom ooffset.toNat = [] := by
          rcases not_and_or.mp behind with beyond | beyond
          · exact .inl (memoryFrom_behind (Nat.lt_of_not_le beyond))
          · exact .inr (memoryFrom_behind (Nat.lt_of_not_le beyond))
        rw [if_neg absent, strncmp_outside positive outside]
        refine iff_of_false ?_ fun known => absent known.1
        rintro ⟨answer, returns, -⟩
        cases returns

/-- With offsets within the strings, as where a URI is parsed, no byte behind the strings is looked
at. -/
theorem regionMatches_within (within : toffset.toNat ≤ string.bytes.length)
    (otherWithin : ooffset.toNat ≤ other.bytes.length) :
    string.regionMatches toffset (some other) ooffset len =
      .ok (String.regionMatches string.bytes toffset.toNat other.bytes ooffset.toNat
        len.toNat) := by
  unfold String.regionMatches
  by_cases second : Refused other.bytes.length ooffset.toNat len.toNat
  · rw [regionMatches_refused (.inl second), if_pos ((sizeSub_lt_iff ooffset).mpr second)]
  · rw [if_neg (mt (sizeSub_lt_iff ooffset).mp second)]
    by_cases first : Refused string.bytes.length toffset.toNat len.toNat
    · rw [regionMatches_refused (.inr first), if_pos ((sizeSub_lt_iff toffset).mpr first)]
    · rw [if_neg (mt (sizeSub_lt_iff toffset).mp first)]
      rw [Refused, if_pos within] at first
      rw [Refused, if_pos otherWithin] at second
      rw [regionMatches_inside (Nat.not_lt.mp first) (Nat.not_lt.mp second), sameChars, cStr, cStr,
        cStr, cStr, List.take_takeWhile, List.take_takeWhile]

/-- `regionMatches` finds out whether the regions are the same, and reads no byte outside of the
strings, if and only if the strings and the numbers suit it. -/
theorem matchesRegions_iff (string : Buffer) (toffset : UInt64) (other : Buffer)
    (ooffset len : UInt64) :
    string.MatchesRegions toffset other ooffset len ↔
      string.RegionsSuit toffset other ooffset len := by
  unfold RegionsSuit
  split
  case isTrue within =>
    by_cases inside : toffset.toNat + len.toNat ≤ string.bytes.length
    · by_cases otherInside : ooffset.toNat + len.toNat ≤ other.bytes.length
      · rw [matchesRegions_inside_iff inside otherInside]
        exact ⟨fun known _ _ => known, fun known => known inside otherInside⟩
      · refine iff_of_true ?_ fun _ fits => absurd fits otherInside
        have refused : Refused other.bytes.length ooffset.toNat len.toNat := by
          rw [Refused, if_pos within.2]
          exact Nat.lt_of_not_le otherInside
        exact ⟨false, regionMatches_refused (.inl refused), iff_of_false Bool.false_ne_true
          (not_sameRegions_of_refused (.inl refused))⟩
    · refine iff_of_true ?_ fun fits => absurd fits inside
      have refused : Refused string.bytes.length toffset.toNat len.toNat := by
        rw [Refused, if_pos within.1]
        exact Nat.lt_of_not_le inside
      exact ⟨false, regionMatches_refused (.inr refused), iff_of_false Bool.false_ne_true
        (not_sameRegions_of_refused (.inr refused))⟩
  case isFalse behind => exact matchesRegions_behind_iff behind

/-- A region of "abc" behind its end is read, an empty one behind the end matches, and "b" and "c"
behind a NUL are not told apart. -/
theorem regionMatches_goes_wrong :
    let text : Buffer := ⟨some [97, 98, 99]⟩
    (text.regionMatches 4 (some text) 0 1 = .error .outside ∧
        ¬text.MatchesRegions 4 text 0 1) ∧
      (text.regionMatches 4 (some text) 0 0 = .ok true ∧ ¬text.MatchesRegions 4 text 0 0) ∧
        (regionMatches ⟨some [0, 98]⟩ 0 (some ⟨some [0, 99]⟩) 0 2 = .ok true ∧
          ¬MatchesRegions ⟨some [0, 98]⟩ 0 ⟨some [0, 99]⟩ 0 2) := by
  intro text
  have reads : text.regionMatches 4 (some text) 0 1 = .error .outside := by decide
  have empty : text.regionMatches 4 (some text) 0 0 = .ok true := by decide
  have nul : regionMatches ⟨some [0, 98]⟩ 0 (some ⟨some [0, 99]⟩) 0 2 = .ok true := by decide
  refine ⟨⟨reads, ?_⟩, ⟨empty, ?_⟩, nul, ?_⟩
  · rintro ⟨answer, returns, -⟩
    cases reads.symm.trans returns
  · rintro ⟨answer, returns, right⟩
    cases empty.symm.trans returns
    exact absurd (right.mp rfl).1 (by decide)
  · rintro ⟨answer, returns, right⟩
    cases nul.symm.trans returns
    exact absurd (right.mp rfl).2.2 (by decide)

end Buffer

end String

end Mindroid
