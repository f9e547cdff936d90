import Mindroid.Foundation.Escapes
import Mindroid.Net.UriRoundTrip

/-!
# Equality of URIs

Parts with percent-encoded characters are compared without regard to the case of the two
characters behind a `%`, and the hash code is that of the whole text with these two characters in
lower case.  Strings are shorter than 2^31, so that an `int` is as good as an index.
-/

set_option autoImplicit false

namespace Mindroid

open Foundation

namespace URI

def percent : UInt8 := 37

/-! ## The comparison of parts -/

/-- The end of `escapedEqualsIgnoreCase`. -/
def compareRest (first second : List UInt8) (prevIndex : Nat) : Except Failure (Bool ⊕ Nat) := do
  let left ← String.substringFrom first prevIndex
  let right ← String.substringFrom second prevIndex
  pure (.inl (String.equals left right))

/-- One iteration of the loop in `escapedEqualsIgnoreCase`. -/
def compareNext (first second : List UInt8) (prevIndex : Nat) : Except Failure (Bool ⊕ Nat) :=
  match String.indexOfFrom first percent prevIndex with
  | none => compareRest first second prevIndex
  | some index =>
      if String.indexOfFrom second percent prevIndex = some index then do
        let left ← String.substring first prevIndex index
        let right ← String.substring second prevIndex index
        if String.equals left right then do
          let left ← String.substring first (index + 1) (index + 3)
          let right ← String.substring second (index + 1) (index + 3)
          pure (if String.equalsIgnoreCase left right then .inr (index + 3) else .inl false)
        else
          pure (.inl false)
      else
        compareRest first second prevIndex

/-- `escapedEqualsIgnoreCase` of strings that are not null. -/
def escapedEqualsIgnoreCase (first second : List UInt8) : Except Failure Bool :=
  if String.indexOf first percent != String.indexOf second percent then
    .ok (String.equals first second)
  else
    loop (compareNext first second) .endless (first.length + second.length + 1) 0

/-- `&&` of comparisons that throw. -/
def andAlso (first second : Except Failure Bool) : Except Failure Bool := do
  if ← first then second else pure false

/-- The comparison of parts that may both be null. -/
def compareParts (compare : List UInt8 → List UInt8 → Except Failure Bool) :
    Option (List UInt8) → Option (List UInt8) → Except Failure Bool
  | none, none => .ok true
  | some first, some second => compare first second
  | _, _ => .ok false

/-- The comparison of parts that must not be null. -/
def compareNonNull (first second : Option (List UInt8)) : Except Failure Bool :=
  match first, second with
  | some first, some second => escapedEqualsIgnoreCase first second
  | _, _ => .error .nullPointer

/-- The part of `equals` about two authorities that are not null. -/
def equalAuthorities (uri other : URI) (authority otherAuthority : List UInt8) :
    Except Failure Bool :=
  match uri.mHost, other.mHost with
  | none, none => escapedEqualsIgnoreCase otherAuthority authority
  | some host, some otherHost =>
      if String.equalsIgnoreCase host otherHost && uri.mPort == other.mPort then
        compareParts escapedEqualsIgnoreCase uri.mUserInfo other.mUserInfo
      else
        .ok false
  | _, _ => .ok false

/-- `equals` of URIs that are different objects. -/
def equals (uri other : URI) : Except Failure Bool :=
  andAlso (compareParts escapedEqualsIgnoreCase other.mFragment uri.mFragment)
    (andAlso (compareParts (fun first second => .ok (String.equalsIgnoreCase first second))
        other.mScheme uri.mScheme)
      (if other.mOpaque && uri.mOpaque then
        compareNonNull other.mSchemeSpecificPart uri.mSchemeSpecificPart
      else if !other.mOpaque && !uri.mOpaque then
        andAlso (compareNonNull uri.mPath other.mPath)
          (andAlso (compareParts escapedEqualsIgnoreCase other.mQuery uri.mQuery)
            (match uri.mAuthority, other.mAuthority with
              | none, none => .ok true
              | some authority, some otherAuthority =>
                  equalAuthorities uri other authority otherAuthority
              | _, _ => .ok false))
      else
        .ok false))

/-! ## The hash code -/

/-- The appended strings for the authority. -/
def authorityParts (uri : URI) : List (List UInt8) :=
  uri.mAuthority.elim [] fun authority =>
    [slash, slash] ::
      match uri.mHost with
      | none => [String.cStr authority]
      | some host =>
          (uri.mUserInfo.elim [] fun userInfo => [String.cStr userInfo, [at_sign]]) ++
            (String.cStr (String.toLowerCase host) ::
              if uri.mPort != -1 then [[colon], Integer.toString uri.mPort] else [])

/-- The strings that `getHashString` appends.  The scheme-specific part is not null. -/
def hashParts (uri : URI) : List (List UInt8) :=
  (uri.mScheme.elim [] fun scheme => [String.cStr (String.toLowerCase scheme), [colon]]) ++
    ((if uri.mOpaque then
        uri.mSchemeSpecificPart.elim [] fun part => [String.cStr part]
      else
        uri.authorityParts ++
          ((uri.mPath.elim [] fun path => [String.cStr path]) ++
            uri.mQuery.elim [] fun query => [[questionMark], String.cStr query])) ++
      uri.mFragment.elim [] fun fragment => [[numberSign], String.cStr fragment])

/-- One iteration of the loop in `convertHexSequencesToLowerCase`. -/
def convertNext (string : List UInt8) (st : Nat × List UInt8) :
    Except Failure (List UInt8 ⊕ Nat × List UInt8) :=
  match String.indexOfFrom string percent st.1 with
  | none => do
      let rest ← String.substringFrom string st.1
      pure (.inl (st.2 ++ String.cStr rest))
  | some index => do
      let before ← String.substring string st.1 (index + 1)
      let sequence ← String.substring string (index + 1) (index + 3)
      pure (.inr (index + 3,
        st.2 ++ String.cStr before ++ String.cStr (String.toLowerCase sequence)))

def convertHexSequencesToLowerCase (string : List UInt8) : Except Failure (List UInt8) :=
  if (String.indexOf string percent).isNone then
    .ok string
  else
    loop (convertNext string) .endless (string.length + 1) (0, [])

def getHashString (uri : URI) : Except Failure (List UInt8) :=
  convertHexSequencesToLowerCase uri.hashParts.flatten

def hashCode (uri : URI) : Except Failure UInt64 :=
  uri.getHashString.map String.hashCode

/-! ## What a walk from escape to escape sees -/

/-- Every `%` that is reached before a NUL has two more characters behind it. -/
def contained : Nat → List UInt8 → Bool
  | 0, [] => true
  | _ + 1, [] => false
  | 0, c :: text => c == 0 || contained (if c == percent then 2 else 0) text
  | count + 1, _ :: text => contained count text

/-- A text with the two characters behind every `%` in lower case. -/
abbrev lowered (text : List UInt8) : List UInt8 :=
  Escapes.folded (· == percent) 2 String.tolower 0 text

/-- A walk finds no `%`, or the first one. -/
inductive Walk (string : List UInt8) (prevIndex : Nat) : Prop where
  | ends (absent : String.indexOfFrom string percent prevIndex = none)
      (lacks : ∀ c ∈ String.cStr (string.drop prevIndex), (c == percent) = false)
      (fits : contained 0 (string.drop prevIndex) = true)
  | finds (before behind : List UInt8) (split : string.drop prevIndex = before ++ percent :: behind)
      (lacks : Lacks percent before)
      (found : String.indexOfFrom string percent prevIndex = some (prevIndex + before.length))

theorem contained_lacks {before : List UInt8} (lacks : Lacks percent before)
    (text : List UInt8) : contained 0 (before ++ text) = contained 0 text := by
  induction before with
  | nil => rfl
  | cons c before ih =>
      rcases lacks c List.mem_cons_self with ⟨different, nonzero⟩
      rw [List.cons_append, contained, beq_false_of_ne nonzero, beq_false_of_ne different,
        if_neg Bool.false_ne_true, Bool.false_or]
      exact ih fun later member => lacks later (List.mem_cons_of_mem _ member)

/-- Without a `%` before the first NUL everything fits. -/
theorem upTo_whole {text : List UInt8} (whole : upTo percent text = text) :
    (∀ c ∈ String.cStr text, (c == percent) = false) ∧ contained 0 text = true := by
  induction text with
  | nil => exact ⟨List.forall_mem_nil _, rfl⟩
  | cons c text ih =>
      rw [upTo] at whole
      split at whole
      case isTrue => cases whole
      case isFalse different =>
        rw [contained, beq_false_of_ne different, if_neg Bool.false_ne_true]
        split at whole
        case isTrue isNul =>
          subst isNul
          exact ⟨List.forall_mem_nil _, rfl⟩
        case isFalse nonzero =>
          have rest := ih (List.cons.inj whole).2
          rw [String.cStr_cons, if_neg nonzero, beq_false_of_ne nonzero, Bool.false_or]
          exact ⟨List.forall_mem_cons.mpr ⟨beq_false_of_ne different, rest.1⟩, rest.2⟩

theorem upTo_lacks_percent (text : List UInt8) (short : (upTo percent text).length < text.length) :
    Lacks percent (upTo percent text) ∧
      ∃ behind, text = upTo percent text ++ percent :: behind := by
  induction text with
  | nil => cases short
  | cons c text ih =>
      rw [upTo] at short ⊢
      split at short
      case isTrue same =>
        rw [if_pos same]
        exact ⟨List.forall_mem_nil _, text, by rw [same]; rfl⟩
      case isFalse different =>
        split at short
        case isTrue => exact absurd short (Nat.lt_irrefl _)
        case isFalse nonzero =>
          rw [if_neg different, if_neg nonzero]
          rcases ih (Nat.lt_of_succ_lt_succ short) with ⟨lacks, behind, split⟩
          exact ⟨List.forall_mem_cons.mpr ⟨⟨different, nonzero⟩, lacks⟩, behind,
            congrArg (c :: ·) split⟩

theorem walk (string : List UInt8) {prevIndex : Nat} (inside : prevIndex ≤ string.length) :
    Walk string prevIndex := by
  have size : (upTo percent (string.drop prevIndex)).length ≤ (string.drop prevIndex).length :=
    (upTo_isInitial percent _).length_le
  by_cases found : (upTo percent (string.drop prevIndex)).length < (string.drop prevIndex).length
  · rcases upTo_lacks_percent _ found with ⟨lacks, behind, split⟩
    refine .finds _ behind split lacks ?_
    have starts : prevIndex < string.length := by
      rw [List.length_drop] at found
      omega
    rw [String.indexOfFrom, if_pos starts, string_indexOf_eq (by decide), if_pos found]
    rfl
  · have whole : upTo percent (string.drop prevIndex) = string.drop prevIndex :=
      (upTo_isInitial percent _).eq_of_length (Nat.le_antisymm size (Nat.not_lt.mp found))
    have rest := upTo_whole whole
    refine .ends ?_ rest.1 rest.2
    rw [String.indexOfFrom]
    split
    · rw [string_indexOf_eq (by decide), if_neg found]
      rfl
    · rfl

/-! ## Windows -/

theorem tolower_zero_iff (c : UInt8) : String.tolower c = 0 ↔ c = 0 := by
  rw [String.tolower]
  split
  case isTrue upper =>
    have bounds := Bool.and_eq_true_iff.mp upper
    have low := UInt8.le_iff_toNat_le.mp (of_decide_eq_true bounds.1)
    have high := UInt8.le_iff_toNat_le.mp (of_decide_eq_true bounds.2)
    have sum : (c + 32).toNat = c.toNat + 32 := by
      rw [UInt8.toNat_add]
      exact Nat.mod_eq_of_lt (Nat.lt_of_le_of_lt (Nat.add_le_add_right high 32) (by decide))
    constructor
    · intro zero
      rw [zero] at sum
      cases sum
    · rintro rfl
      exact absurd low (by decide)
  case isFalse => exact Iff.rfl

/-- Two characters behind a `%`, as they are compared. -/
def window (c d : UInt8) : List UInt8 :=
  String.cStr (String.toLowerCase [c, d])

theorem window_eq (c d : UInt8) :
    window c d = if c = 0 then [] else if d = 0 then [String.tolower c] else
      [String.tolower c, String.tolower d] := by
  rw [window, String.toLowerCase, List.map_cons, String.cStr_cons]
  simp only [tolower_zero_iff]
  split
  case isTrue => rfl
  case isFalse =>
    rw [List.map_cons, String.cStr_cons]
    simp only [tolower_zero_iff]
    split <;> rfl

theorem folded_window (c d : UInt8) (rest : List UInt8) :
    Escapes.folded (· == percent) 2 String.tolower 2 (String.cStr (c :: d :: rest)) =
      window c d ++ if (window c d).length = 2 then lowered (String.cStr rest) else [] := by
  rw [window_eq, String.cStr_cons, String.cStr_cons]
  split
  case isTrue => rfl
  case isFalse => split <;> rfl

/-- What comes behind a `%` is the same if the windows and the rests are. -/
theorem folded_windows {c d c' d' : UInt8} {rest rest' : List UInt8}
    (windows : window c d = window c' d')
    (same : lowered (String.cStr rest) = lowered (String.cStr rest')) :
    Escapes.folded (· == percent) 2 String.tolower 2 (String.cStr (c :: d :: rest)) =
      Escapes.folded (· == percent) 2 String.tolower 2 (String.cStr (c' :: d' :: rest')) := by
  rw [folded_window, folded_window, windows, same]

theorem cStr_append_of_lacks {before : List UInt8} (lacks : Lacks percent before)
    (text : List UInt8) : String.cStr (before ++ text) = before ++ String.cStr text := by
  rw [String.cStr, List.takeWhile_append_of_pos]
  · rfl
  · intro c member
    exact bne_iff_ne.mpr (lacks c member).2

/-- A text up to its first `%`, and from there on. -/
theorem lowered_found {before : List UInt8} (lacks : Lacks percent before) (behind : List UInt8) :
    lowered (String.cStr (before ++ percent :: behind)) =
      before ++ percent :: Escapes.folded (· == percent) 2 String.tolower 2 (String.cStr behind) := by
  have plain := @Escapes.plain _ (· == percent) 2 String.tolower before fun c member =>
    beq_false_of_ne (lacks c member).1
  rw [cStr_append_of_lacks lacks, String.cStr_cons, if_neg (by decide), lowered,
    Escapes.folded_append, plain.1, plain.2]
  rfl

section Found

variable {string before behind : List UInt8} {prevIndex : Nat}

theorem before_eq (split : string.drop prevIndex = before ++ percent :: behind) :
    String.substring string prevIndex (prevIndex + before.length) = .ok before := by
  have size := congrArg List.length split
  rw [List.length_drop, List.length_append, List.length_cons] at size
  rw [String.substring_ok (Nat.le_add_right _ _) (by omega), Nat.add_sub_cancel_left, split,
    List.take_left]

theorem behind_eq (split : string.drop prevIndex = before ++ percent :: behind) :
    string.drop (prevIndex + before.length + 1) = behind := by
  rw [← List.drop_drop, ← List.drop_drop, split, List.drop_left]
  rfl

/-- Two characters behind a `%` are a window. -/
theorem window_ok {c d : UInt8} {rest : List UInt8}
    (split : string.drop prevIndex = before ++ percent :: c :: d :: rest) :
    String.substring string (prevIndex + before.length + 1) (prevIndex + before.length + 3) =
        .ok [c, d] ∧
      string.drop (prevIndex + before.length + 3) = rest ∧
      prevIndex + before.length + 3 ≤ string.length := by
  have size := congrArg List.length split
  rw [List.length_drop, List.length_append] at size
  simp only [List.length_cons] at size
  have inside : prevIndex + before.length + 3 ≤ string.length := by omega
  have drops := behind_eq split
  refine ⟨?_, ?_, inside⟩
  · rw [String.substring_ok (by omega) inside, drops,
      show prevIndex + before.length + 3 - (prevIndex + before.length + 1) = 2 by omega]
    rfl
  · rw [show prevIndex + before.length + 3 = prevIndex + before.length + 1 + 2 by omega,
      ← List.drop_drop, drops]
    rfl

theorem window_short (split : string.drop prevIndex = before ++ percent :: behind)
    (short : behind.length < 2) :
    String.substring string (prevIndex + before.length + 1) (prevIndex + before.length + 3) =
      .error .indexOutOfBoundsException := by
  have size := congrArg List.length split
  rw [List.length_drop, List.length_append, List.length_cons] at size
  rw [String.substring, if_pos (.inr (.inr (by omega)))]

/-- What is behind a `%` fits if there are two characters and the rest fits. -/
theorem contained_found (lacks : Lacks percent before) (behind : List UInt8) :
    contained 0 (before ++ percent :: behind) = contained 2 behind := by
  rw [contained_lacks lacks]
  rfl

end Found

/-! ## The loop of the comparison -/

/-- What an iteration does with two strings that are compared from an index on. -/
inductive Compared (first second : List UInt8) (prevIndex : Nat) :
    Except Failure (Bool ⊕ Nat) → Prop where
  | differs (different : first.drop prevIndex ≠ second.drop prevIndex) :
      Compared first second prevIndex (.ok (.inl false))
  | same
      (equal : lowered (String.cStr (first.drop prevIndex)) =
        lowered (String.cStr (second.drop prevIndex)))
      (fits : first.drop prevIndex = second.drop prevIndex →
        contained 0 (first.drop prevIndex) = true) :
      Compared first second prevIndex (.ok (.inl true))
  | goesOn (next : Nat) (further : prevIndex < next) (inFirst : next ≤ first.length)
      (inSecond : next ≤ second.length)
      (fitsFirst : contained 0 (first.drop prevIndex) = contained 0 (first.drop next))
      (fitsSecond : contained 0 (second.drop prevIndex) = contained 0 (second.drop next))
      (same : lowered (String.cStr (first.drop next)) = lowered (String.cStr (second.drop next)) →
        lowered (String.cStr (first.drop prevIndex)) =
          lowered (String.cStr (second.drop prevIndex))) :
      Compared first second prevIndex (.ok (.inr next))
  | short
      (tooShort : contained 0 (first.drop prevIndex) = false ∨
        contained 0 (second.drop prevIndex) = false) :
      Compared first second prevIndex (.error .indexOutOfBoundsException)

section Compare

variable {first second : List UInt8} {prevIndex : Nat}

/-- The end of the comparison, if it tells strings apart whenever they do not fit. -/
theorem compared_rest (inFirst : prevIndex ≤ first.length) (inSecond : prevIndex ≤ second.length)
    (fits : first.drop prevIndex = second.drop prevIndex →
      contained 0 (first.drop prevIndex) = true) :
    Compared first second prevIndex (compareRest first second prevIndex) := by
  have rest : compareRest first second prevIndex =
      .ok (.inl (String.equals (first.drop prevIndex) (second.drop prevIndex))) := by
    rw [compareRest, String.substringFrom_ok inFirst, String.substringFrom_ok inSecond]
    rfl
  rw [rest]
  cases equal : String.equals (first.drop prevIndex) (second.drop prevIndex) with
  | true => exact .same (congrArg lowered (beq_iff_eq.mp equal)) fits
  | false =>
      refine .differs fun same => ?_
      rw [same, String.equals, beq_self_eq_true] at equal
      cases equal

/-- Windows at the same place of two strings. -/
theorem compared_windows {before behind behind' : List UInt8}
    (split : first.drop prevIndex = before ++ percent :: behind)
    (split' : second.drop prevIndex = before ++ percent :: behind')
    (lacks : Lacks percent before) :
    Compared first second prevIndex (do
      let left ← String.substring first (prevIndex + before.length + 1)
        (prevIndex + before.length + 3)
      let right ← String.substring second (prevIndex + before.length + 1)
        (prevIndex + before.length + 3)
      pure (if String.equalsIgnoreCase left right then .inr (prevIndex + before.length + 3)
        else .inl false)) := by
  match behind, behind' with
  | [], _ =>
      rw [window_short split (by decide)]
      refine .short (.inl ?_)
      rw [split, contained_found lacks]
      rfl
  | [_], _ =>
      rw [window_short split (Nat.lt_succ_self 1)]
      refine .short (.inl ?_)
      rw [split, contained_found lacks]
      rfl
  | c :: d :: rest, [] =>
      rw [(window_ok split).1, window_short split' (by decide)]
      refine .short (.inr ?_)
      rw [split', contained_found lacks]
      rfl
  | c :: d :: rest, [_] =>
      rw [(window_ok split).1, window_short split' (Nat.lt_succ_self 1)]
      refine .short (.inr ?_)
      rw [split', contained_found lacks]
      rfl
  | c :: d :: rest, c' :: d' :: rest' =>
      rcases window_ok split with ⟨read, drops, inFirst⟩
      rcases window_ok split' with ⟨read', drops', inSecond⟩
      rw [read, read']
      change Compared first second prevIndex (.ok (if String.equalsIgnoreCase [c, d] [c', d'] then
        .inr (prevIndex + before.length + 3) else .inl false))
      cases matching : String.equalsIgnoreCase [c, d] [c', d'] with
      | true =>
          have further : prevIndex < prevIndex + before.length + 3 := by omega
          refine .goesOn _ further inFirst inSecond ?_ ?_ ?_
          · rw [drops, split, contained_found lacks]
            rfl
          · rw [drops', split', contained_found lacks]
            rfl
          · intro same
            rw [drops, drops'] at same
            rw [split, split', lowered_found lacks, lowered_found lacks,
              folded_windows (beq_iff_eq.mp matching) same]
      | false =>
          refine .differs fun equal => ?_
          rw [split, split'] at equal
          cases (List.append_cancel_left equal)
          rw [String.equalsIgnoreCase, String.equals, beq_self_eq_true] at matching
          cases matching

theorem compared (inFirst : prevIndex ≤ first.length) (inSecond : prevIndex ≤ second.length) :
    Compared first second prevIndex (compareNext first second prevIndex) := by
  rw [compareNext]
  cases walk first inFirst with
  | ends absent lacks fits =>
      rw [absent]
      exact compared_rest inFirst inSecond fun _ => fits
  | finds before behind split lacks found =>
      rw [found]
      dsimp only
      cases walk second inSecond with
      | ends absent' _ fits' =>
          rw [absent', if_neg (Option.some_ne_none _).symm]
          exact compared_rest inFirst inSecond fun same => same ▸ fits'
      | finds before' behind' split' lacks' found' =>
          rw [found']
          by_cases sameSize : before.length = before'.length
          · rw [if_pos (by rw [sameSize]), before_eq split]
            have cut := before_eq split'
            rw [← sameSize] at cut
            rw [cut]
            change Compared first second prevIndex
              (if String.equals before before' then _ else .ok (.inl false))
            cases equal : String.equals before before' with
            | true =>
                have same : before = before' := by
                  have compared := beq_iff_eq.mp equal
                  rwa [String.cStr_of_nonzero fun c member => (lacks c member).2,
                    String.cStr_of_nonzero fun c member => (lacks' c member).2] at compared
                subst same
                exact compared_windows split split' lacks
            | false =>
                refine .differs fun same => ?_
                rw [split, split'] at same
                rw [List.append_inj_left same sameSize, String.equals, beq_self_eq_true] at equal
                cases equal
          · rw [if_neg fun equal => sameSize
              (Nat.add_left_cancel (Option.some.inj equal)).symm]
            refine compared_rest inFirst inSecond fun same => absurd ?_ sameSize
            -- the first `%` is found where it is
            rw [← (upTo_found lacks behind).1, ← (upTo_found lacks' behind').1, ← split, ← split',
              same]

/-- Strings whose escapes fit are compared. -/
theorem escapedEquals_returns (fitsFirst : contained 0 first = true)
    (fitsSecond : contained 0 second = true) :
    ∃ flag, escapedEqualsIgnoreCase first second = .ok flag := by
  rw [escapedEqualsIgnoreCase]
  split
  case isTrue => exact ⟨_, rfl⟩
  case isFalse =>
    have ends : ∃ flag, loop (compareNext first second) .endless
        (first.length + second.length + 1) 0 = .ok flag ∧ True := by
      refine loop_returns
        (fun index => (index ≤ first.length ∧ index ≤ second.length) ∧
          contained 0 (first.drop index) = true ∧ contained 0 (second.drop index) = true)
        (fun index => first.length - index) (fun _ => True) ?_
        ⟨⟨Nat.zero_le _, Nat.zero_le _⟩, fitsFirst, fitsSecond⟩ (by omega)
      rintro index ⟨⟨inFirst, inSecond⟩, restFirst, restSecond⟩
      have step := compared inFirst inSecond
      generalize compareNext first second index = result at step ⊢
      cases step with
      | differs => exact .inl ⟨false, rfl, trivial⟩
      | same => exact .inl ⟨true, rfl, trivial⟩
      | goesOn next further inFirst inSecond fitsFirst fitsSecond =>
          refine .inr ⟨next, rfl, ⟨⟨inFirst, inSecond⟩, ?_, ?_⟩, by omega⟩
          · rw [← fitsFirst, restFirst]
          · rw [← fitsSecond, restSecond]
      | short tooShort =>
          cases tooShort with
          | inl shortFirst =>
              rw [restFirst] at shortFirst
              cases shortFirst
          | inr shortSecond =>
              rw [restSecond] at shortSecond
              cases shortSecond
    rcases ends with ⟨flag, returns, _⟩
    exact ⟨flag, returns⟩

/-- Strings that are found equal are the same with their escapes in lower case, as far as the
first NUL. -/
theorem lowered_of_escapedEquals (equal : escapedEqualsIgnoreCase first second = .ok true) :
    lowered (String.cStr first) = lowered (String.cStr second) := by
  rw [escapedEqualsIgnoreCase] at equal
  split at equal
  case isTrue => exact congrArg lowered (beq_iff_eq.mp (Except.ok.inj equal))
  case isFalse =>
    refine loop_post
      (fun index => (index ≤ first.length ∧ index ≤ second.length) ∧
        (lowered (String.cStr (first.drop index)) = lowered (String.cStr (second.drop index)) →
          lowered (String.cStr first) = lowered (String.cStr second)))
      (fun flag => flag = true → lowered (String.cStr first) = lowered (String.cStr second))
      ?_ ?_ ⟨⟨Nat.zero_le _, Nat.zero_le _⟩, id⟩ equal rfl
    · rintro index flag ⟨⟨inFirst, inSecond⟩, sameBefore⟩ returns
      have step := compared inFirst inSecond
      rw [returns] at step
      cases step with
      | differs =>
          intro isTrue
          cases isTrue
      | same equal => exact fun _ => sameBefore equal
    · rintro index next ⟨⟨inFirst, inSecond⟩, sameBefore⟩ goes
      have step := compared inFirst inSecond
      rw [goes] at step
      cases step with
      | goesOn _ _ inFirst inSecond _ _ same =>
          exact ⟨⟨inFirst, inSecond⟩, fun equal => sameBefore (same equal)⟩

/-- A string that is compared with itself is equal, and its escapes fit. -/
theorem escapedEquals_self {flag : Bool} (returns : escapedEqualsIgnoreCase first first = .ok flag) :
    flag = true ∧ contained 0 first = true := by
  rw [escapedEqualsIgnoreCase, if_neg (by rw [bne_self_eq_false]; exact Bool.false_ne_true)]
    at returns
  refine loop_post
    (fun index => index ≤ first.length ∧ contained 0 first = contained 0 (first.drop index))
    (fun flag => flag = true ∧ contained 0 first = true) ?_ ?_ ⟨Nat.zero_le _, rfl⟩ returns
  · rintro index flag ⟨inside, before⟩ returned
    have step := compared inside inside
    rw [returned] at step
    cases step with
    | differs different => exact absurd rfl different
    | same _ fits => exact ⟨rfl, before.trans (fits rfl)⟩
  · rintro index next ⟨inside, before⟩ goes
    have step := compared inside inside
    rw [goes] at step
    cases step with
    | goesOn _ _ inside _ fits => exact ⟨inside, before.trans fits⟩

end Compare

/-! ## Symmetry -/

theorem substring_error {string : List UInt8} {beginIndex endIndex : Nat} {failure : Failure}
    (fails : String.substring string beginIndex endIndex = .error failure) :
    failure = .indexOutOfBoundsException := by
  rw [String.substring] at fails
  split at fails
  · cases fails
    rfl
  · cases fails

theorem substringFrom_error {string : List UInt8} {beginIndex : Nat} {failure : Failure}
    (fails : String.substringFrom string beginIndex = .error failure) :
    failure = .indexOutOfBoundsException := by
  rw [String.substringFrom] at fails
  split at fails
  · cases fails
    rfl
  · cases fails

/-- Two steps that can only throw the same exception may be exchanged. -/
theorem bind_comm {α : Type} {left right : Except Failure (List UInt8)} {thrown : Failure}
    (leftThrows : ∀ failure, left = .error failure → failure = thrown)
    (rightThrows : ∀ failure, right = .error failure → failure = thrown)
    {next next' : List UInt8 → List UInt8 → Except Failure α}
    (same : ∀ a b, next a b = next' b a) :
    (left >>= fun a => right >>= fun b => next a b) =
      right >>= fun b => left >>= fun a => next' b a := by
  cases left with
  | error failure =>
      cases right with
      | error failure' => rw [leftThrows failure rfl, rightThrows failure' rfl]; rfl
      | ok b => rfl
  | ok a =>
      cases right with
      | error failure' => rfl
      | ok b => exact same a b

theorem equals_comm (string other : List UInt8) :
    String.equals string other = String.equals other string :=
  Bool.beq_comm

theorem equalsIgnoreCase_comm (string other : List UInt8) :
    String.equalsIgnoreCase string other = String.equalsIgnoreCase other string :=
  equals_comm _ _

theorem compareRest_comm (first second : List UInt8) (prevIndex : Nat) :
    compareRest first second prevIndex = compareRest second first prevIndex := by
  refine bind_comm (fun _ => substringFrom_error) (fun _ => substringFrom_error) fun left right => ?_
  rw [equals_comm]

theorem compareNext_comm (first second : List UInt8) (prevIndex : Nat) :
    compareNext first second prevIndex = compareNext second first prevIndex := by
  rw [compareNext, compareNext]
  cases String.indexOfFrom first percent prevIndex with
  | none =>
      cases String.indexOfFrom second percent prevIndex with
      | none => exact compareRest_comm first second prevIndex
      | some index =>
          dsimp only
          rw [if_neg (Option.some_ne_none index).symm]
          exact compareRest_comm first second prevIndex
  | some index =>
      cases String.indexOfFrom second percent prevIndex with
      | none =>
          dsimp only
          rw [if_neg (Option.some_ne_none index).symm]
          exact compareRest_comm first second prevIndex
      | some other =>
          by_cases same : index = other
          · subst same
            dsimp only
            rw [if_pos rfl, if_pos rfl]
            refine bind_comm (fun _ => substring_error) (fun _ => substring_error)
              fun left right => ?_
            rw [equals_comm]
            split
            · refine bind_comm (fun _ => substring_error) (fun _ => substring_error)
                fun left right => ?_
              rw [equalsIgnoreCase_comm]
            · rfl
          · dsimp only
            rw [if_neg fun equal => same (Option.some.inj equal).symm,
              if_neg fun equal => same (Option.some.inj equal)]
            exact compareRest_comm first second prevIndex

theorem escapedEquals_comm (first second : List UInt8) :
    escapedEqualsIgnoreCase first second = escapedEqualsIgnoreCase second first := by
  rw [escapedEqualsIgnoreCase, escapedEqualsIgnoreCase, bne_comm, equals_comm,
    funext (compareNext_comm first second), Nat.add_comm first.length]

theorem compareParts_comm {compare : List UInt8 → List UInt8 → Except Failure Bool}
    (comm : ∀ first second, compare first second = compare second first)
    (first second : Option (List UInt8)) :
    compareParts compare first second = compareParts compare second first := by
  cases first with
  | none => cases second <;> rfl
  | some first =>
      cases second with
      | none => rfl
      | some second => exact comm first second

theorem compareNonNull_comm (first second : Option (List UInt8)) :
    compareNonNull first second = compareNonNull second first := by
  cases first with
  | none => cases second <;> rfl
  | some first =>
      cases second with
      | none => rfl
      | some second => exact escapedEquals_comm first second

theorem equalAuthorities_comm (uri other : URI) (authority otherAuthority : List UInt8) :
    equalAuthorities uri other authority otherAuthority =
      equalAuthorities other uri otherAuthority authority := by
  rw [equalAuthorities, equalAuthorities]
  cases uri.mHost with
  | none =>
      cases other.mHost with
      | none => exact escapedEquals_comm otherAuthority authority
      | some otherHost => rfl
  | some host =>
      cases other.mHost with
      | none => rfl
      | some otherHost =>
          dsimp only
          rw [equalsIgnoreCase_comm host, Bool.beq_comm (a := uri.mPort),
            compareParts_comm escapedEquals_comm]

/-- `equals` returns or throws the same the other way round. -/
theorem equals_symmetric (uri other : URI) : equals uri other = equals other uri := by
  rw [equals, equals, compareParts_comm escapedEquals_comm other.mFragment,
    compareParts_comm (fun first second => congrArg Except.ok (equalsIgnoreCase_comm first second))
      other.mScheme,
    compareNonNull_comm other.mSchemeSpecificPart, compareNonNull_comm uri.mPath,
    compareParts_comm escapedEquals_comm other.mQuery, Bool.and_comm other.mOpaque,
    Bool.and_comm (!other.mOpaque)]
  congr 4
  cases uri.mAuthority with
  | none => cases other.mAuthority <;> rfl
  | some authority =>
      cases other.mAuthority with
      | none => rfl
      | some otherAuthority =>
          dsimp only
          rw [equalAuthorities_comm]

end URI

end Mindroid
