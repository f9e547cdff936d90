import Mindroid.Net.UriEquality

/-!
# Hash codes of URIs

The hash code is that of a text made of all parts.  As long as the escapes of every part fit into
the part and the walk over the text stops where the walks over the parts do, equal URIs have the
same hash code.
-/

set_option autoImplicit false

namespace Mindroid

open Foundation

namespace URI

/-! ## The text that is hashed -/

/-- In a string without NUL, what fits is what nothing is missing behind. -/
theorem contained_iff_pending {string : List UInt8} (nonzero : ∀ c ∈ string, c ≠ 0) (count : Nat) :
    contained count string = true ↔ Escapes.pending (· == percent) 2 count string = 0 := by
  induction string generalizing count with
  | nil =>
      cases count with
      | zero => exact iff_of_true rfl rfl
      | succ count => exact iff_of_false Bool.false_ne_true (Nat.succ_ne_zero count)
  | cons c string ih =>
      have parts := List.forall_mem_cons.mp nonzero
      cases count with
      | zero =>
          rw [contained, beq_false_of_ne parts.1, Bool.false_or]
          exact ih parts.2 _
      | succ count => exact ih parts.2 count

/-- What an iteration over a string without NUL does. -/
inductive Converted (string text : List UInt8) (prevIndex : Nat) :
    Except Failure (List UInt8 ⊕ Nat × List UInt8) → Prop where
  | ends (fits : contained 0 (string.drop prevIndex) = true) :
      Converted string text prevIndex (.ok (.inl (text ++ lowered (string.drop prevIndex))))
  | goesOn (next : Nat) (more : List UInt8) (further : prevIndex < next)
      (inside : next ≤ string.length)
      (fits : contained 0 (string.drop prevIndex) = contained 0 (string.drop next))
      (same : text ++ lowered (string.drop prevIndex) = more ++ lowered (string.drop next)) :
      Converted string text prevIndex (.ok (.inr (next, more)))
  | short (tooShort : contained 0 (string.drop prevIndex) = false) :
      Converted string text prevIndex (.error .indexOutOfBoundsException)

theorem converted {string : List UInt8} (nonzero : ∀ c ∈ string, c ≠ 0) (text : List UInt8)
    {prevIndex : Nat} (inside : prevIndex ≤ string.length) :
    Converted string text prevIndex (convertNext string (prevIndex, text)) := by
  have visible : ∀ {index : Nat}, String.cStr (string.drop index) = string.drop index :=
    String.cStr_of_nonzero fun c member => nonzero c (List.mem_of_mem_drop member)
  rw [convertNext]
  cases walk string inside with
  | ends absent lacks fits =>
      rw [absent]
      dsimp only
      rw [String.substringFrom_ok inside]
      rw [visible] at lacks
      have plain := @Escapes.plain _ (· == percent) 2 String.tolower _ lacks
      have result : String.cStr (string.drop prevIndex) = lowered (string.drop prevIndex) := by
        rw [visible, lowered, plain.2]
      change Converted _ _ _ (.ok (.inl (text ++ String.cStr (string.drop prevIndex))))
      rw [result]
      exact .ends fits
  | finds before behind split lacks found =>
      rw [found]
      dsimp only
      have size := congrArg List.length split
      rw [List.length_drop, List.length_append, List.length_cons] at size
      have cut : String.substring string prevIndex (prevIndex + before.length + 1) =
          .ok (before ++ [percent]) := by
        rw [String.substring_ok (by omega) (by omega), split, List.append_cons,
          show prevIndex + before.length + 1 - prevIndex = (before ++ [percent]).length by
            rw [List.length_append, List.length_singleton]
            omega,
          List.take_left]
      rw [cut]
      cases behind with
      | nil =>
          rw [window_short split (Nat.succ_pos 1)]
          refine .short ?_
          rw [split, contained_found lacks]
          rfl
      | cons c behind =>
          cases behind with
          | nil =>
              rw [window_short split (Nat.lt_succ_self 1)]
              refine .short ?_
              rw [split, contained_found lacks]
              rfl
          | cons d rest =>
              rcases window_ok split with ⟨read, drops, inside⟩
              rw [read]
              have further : prevIndex < prevIndex + before.length + 3 := by omega
              have whole := lowered_found lacks (c :: d :: rest)
              rw [← split, visible] at whole
              have front : String.cStr (before ++ [percent]) = before ++ [percent] := by
                rw [cStr_append_of_lacks lacks]
                rfl
              have pair : ∀ other ∈ [c, d], other ≠ 0 := by
                intro other member
                refine nonzero other (List.mem_of_mem_drop (i := prevIndex) ?_)
                rw [split, List.mem_append]
                exact .inr (List.mem_cons_of_mem _ (List.mem_append_left rest member))
              have second : window c d = [String.tolower c, String.tolower d] := by
                rw [window_eq, if_neg (pair c List.mem_cons_self),
                  if_neg (pair d (List.mem_cons_of_mem _ List.mem_cons_self))]
              refine .goesOn _ _ further inside ?_ ?_
              · rw [drops, split, contained_found lacks]
                rfl
              · have behindWindow : String.cStr rest = rest := drops ▸ visible
                change _ = text ++ String.cStr (before ++ [percent]) ++ window c d ++ _
                have two : [String.tolower c, String.tolower d].length = 2 := rfl
                rw [whole, folded_window, front, drops, behindWindow, second, if_pos two,
                  List.append_assoc, List.append_assoc, List.append_assoc]
                rfl

theorem upTo_of_absent {string : List UInt8} (absent : (String.indexOf string percent).isNone = true) :
    upTo percent string = string := by
  have isFront := upTo_isInitial percent string
  refine isFront.eq_of_length (Nat.le_antisymm isFront.length_le (Nat.not_lt.mp fun found => ?_))
  rw [string_indexOf_eq (by decide), if_pos found] at absent
  cases absent

theorem convert_eq {string : List UInt8} (nonzero : ∀ c ∈ string, c ≠ 0)
    (fits : contained 0 string = true) :
    convertHexSequencesToLowerCase string = .ok (lowered string) := by
  rw [convertHexSequencesToLowerCase]
  split
  case isTrue absent =>
    have lacks := (upTo_whole (upTo_of_absent absent)).1
    rw [String.cStr_of_nonzero nonzero] at lacks
    rw [lowered, (@Escapes.plain _ (· == percent) 2 String.tolower _ lacks).2]
  case isFalse =>
    have ends : ∃ result, loop (convertNext string) .endless (string.length + 1) (0, []) =
        .ok result ∧ result = lowered string := by
      refine loop_returns
        (fun st => st.1 ≤ string.length ∧ contained 0 (string.drop st.1) = true ∧
          st.2 ++ lowered (string.drop st.1) = lowered string)
        (fun st => string.length - st.1) (fun result => result = lowered string) ?_ ?_
        (Nat.lt_succ_self _)
      case refine_2 => exact ⟨Nat.zero_le _, fits, rfl⟩
      rintro ⟨index, text⟩ ⟨inside, rest, so_far⟩
      have step := converted nonzero text inside
      generalize convertNext string (index, text) = result at step ⊢
      cases step with
      | ends => exact .inl ⟨_, rfl, so_far⟩
      | goesOn next more further inside fits same =>
          exact .inr ⟨_, rfl, ⟨inside, fits ▸ rest, same ▸ so_far⟩,
            Nat.sub_lt_sub_left (Nat.lt_of_lt_of_le further inside) further⟩
      | short tooShort =>
          rw [rest] at tooShort
          cases tooShort
    rcases ends with ⟨result, returns, isResult⟩
    rw [returns, isResult]

/-- Only strings whose escapes fit are converted. -/
theorem contained_of_convert {string result : List UInt8} (nonzero : ∀ c ∈ string, c ≠ 0)
    (returns : convertHexSequencesToLowerCase string = .ok result) : contained 0 string = true := by
  rw [convertHexSequencesToLowerCase] at returns
  split at returns
  case isTrue absent => exact (upTo_whole (upTo_of_absent absent)).2
  case isFalse =>
    refine loop_post
      (fun st => st.1 ≤ string.length ∧ contained 0 string = contained 0 (string.drop st.1))
      (fun _ => contained 0 string = true) ?_ ?_ ?_ returns
    case refine_3 => exact ⟨Nat.zero_le _, rfl⟩
    · rintro ⟨index, text⟩ result ⟨inside, before⟩ returned
      have step := converted nonzero text inside
      rw [returned] at step
      cases step with
      | ends fits => exact before.trans fits
    · rintro ⟨index, text⟩ next ⟨inside, before⟩ goes
      have step := converted nonzero text inside
      rw [goes] at step
      cases step with
      | goesOn next more _ inside fits => exact ⟨inside, before.trans fits⟩

theorem nonzero_toString (value : Int32) : ∀ c ∈ Integer.toString value, c ≠ 0 := by
  rw [Integer.toString]
  split
  · exact List.forall_mem_cons.mpr ⟨by decide, Integer.nonzero_decimal _⟩
  · exact Integer.nonzero_decimal _

/-- Strings that are appended without NUL. -/
def Visible (parts : List (List UInt8)) : Prop :=
  ∀ part ∈ parts, ∀ c ∈ part, c ≠ 0

theorem visible_nil : Visible [] :=
  List.forall_mem_nil _

theorem visible_cons {part : List UInt8} {parts : List (List UInt8)} (nonzero : ∀ c ∈ part, c ≠ 0)
    (visible : Visible parts) : Visible (part :: parts) :=
  List.forall_mem_cons.mpr ⟨nonzero, visible⟩

theorem visible_append {parts others : List (List UInt8)} (visible : Visible parts)
    (visible' : Visible others) : Visible (parts ++ others) :=
  List.forall_mem_append.mpr ⟨visible, visible'⟩

theorem visible_text (part : List UInt8) : Visible [String.cStr part] :=
  visible_cons (String.nonzero_cStr part) visible_nil

/-- A separator comes before a part. -/
theorem visible_before {mark : List UInt8} (nonzero : ∀ c ∈ mark, c ≠ 0) (part : List UInt8) :
    Visible [mark, String.cStr part] :=
  visible_cons nonzero (visible_text part)

/-- A separator comes after a part. -/
theorem visible_after {mark : List UInt8} (nonzero : ∀ c ∈ mark, c ≠ 0) (part : List UInt8) :
    Visible [String.cStr part, mark] :=
  visible_cons (String.nonzero_cStr part) (visible_cons nonzero visible_nil)

theorem visible_elim {parts : List UInt8 → List (List UInt8)} (visible : ∀ part, Visible (parts part))
    (part : Option (List UInt8)) : Visible (part.elim [] parts) := by
  cases part with
  | none => exact visible_nil
  | some part => exact visible part

theorem visible_authorityParts (uri : URI) : Visible uri.authorityParts := by
  refine visible_elim (fun authority => visible_cons (String.forall_of_all rfl) ?_) _
  cases uri.mHost with
  | none => exact visible_text _
  | some host =>
      refine visible_append (visible_elim (visible_after (String.forall_of_all rfl)) _)
        (visible_cons (String.nonzero_cStr _) ?_)
      split
      · exact visible_cons (String.forall_of_all rfl)
          (visible_cons (nonzero_toString _) visible_nil)
      · exact visible_nil

/-- The text that is hashed has no NUL. -/
theorem visible_hashParts (uri : URI) : Visible uri.hashParts := by
  refine visible_append (visible_elim (fun _ => visible_after (String.forall_of_all rfl) _) _)
    (visible_append ?_ (visible_elim (visible_before (String.forall_of_all rfl)) _))
  split
  · exact visible_elim visible_text _
  · exact visible_append (visible_authorityParts uri) (visible_append (visible_elim visible_text _)
      (visible_elim (visible_before (String.forall_of_all rfl)) _))

theorem nonzero_hashed (uri : URI) : ∀ c ∈ uri.hashParts.flatten, c ≠ 0 := by
  intro c member
  rcases List.mem_flatten.mp member with ⟨part, inParts, inPart⟩
  exact visible_hashParts uri part inParts c inPart

/-- The call returns. -/
def Returns {α : Type} (result : Except Failure α) : Prop :=
  ∃ value, result = .ok value

theorem hashCode_returns_iff (uri : URI) :
    Returns uri.hashCode ↔ contained 0 uri.hashParts.flatten = true := by
  constructor
  · rintro ⟨value, returns⟩
    rw [hashCode, getHashString] at returns
    cases converts : convertHexSequencesToLowerCase uri.hashParts.flatten with
    | error failure =>
        rw [converts] at returns
        cases returns
    | ok text => exact contained_of_convert (nonzero_hashed uri) converts
  · intro fits
    refine ⟨String.hashCode (lowered uri.hashParts.flatten), ?_⟩
    rw [hashCode, getHashString, convert_eq (nonzero_hashed uri) fits]
    rfl

/-! ## The parts that are compared -/

/-- The parts that `equals` compares with regard to their escapes. -/
def comparedParts (uri : URI) : List (List UInt8) :=
  uri.mFragment.toList ++
    if uri.mOpaque then
      uri.mSchemeSpecificPart.toList
    else
      uri.mPath.toList ++ (uri.mQuery.toList ++
        match uri.mAuthority, uri.mHost with
        | none, _ => []
        | some authority, none => [authority]
        | some _, some _ => uri.mUserInfo.toList)

/-- Every `%` in a part that is compared has two characters of the part behind it. -/
def Fits (uri : URI) : Prop :=
  ∀ part ∈ uri.comparedParts, contained 0 part = true

/-- No `%` of a part is one of the two characters behind a `%` of another part, and the last one
has two characters behind it. -/
def Aligned (uri : URI) : Prop :=
  Escapes.Aligned (· == percent) 2 0 uri.hashParts

instance (uri : URI) : Decidable uri.Fits :=
  inferInstanceAs (Decidable (∀ part ∈ uri.comparedParts, contained 0 part = true))

instance (uri : URI) : Decidable uri.Aligned :=
  inferInstanceAs (Decidable (Escapes.Aligned _ _ _ _))

/-- The URIs that constructors make. -/
inductive Accepted (uri : URI) : Prop where
  | new (spec : List UInt8) (made : new spec = .ok uri)
  | ofParts (scheme authority path query fragment : Option (List UInt8))
      (made : ofParts scheme authority path query fragment = .ok uri)
  | ofServerParts (scheme userInfo host : Option (List UInt8)) (port : Int32)
      (path query fragment : Option (List UInt8))
      (made : ofServerParts scheme userInfo host port path query fragment = .ok uri)

/-- An opaque URI has a scheme-specific part, and any other one a path. -/
structure Shaped (uri : URI) : Prop where
  schemeSpecificPart : uri.mOpaque = true → ∃ part, uri.mSchemeSpecificPart = some part
  path : uri.mOpaque = false → ∃ path, uri.mPath = some path

theorem shaped_of_parsed {string : List UInt8} {server : Bool} {uri : URI}
    (accepts : parseURI string server = .ok uri) : uri.Shaped := by
  have same := parts_of_parsed accepts
  constructor
  · intro _
    exact ⟨_, same.schemeSpecificPart⟩
  · intro hierarchical
    refine ⟨pathOf string, same.path.trans (if_neg ?_)⟩
    rw [same.isOpaque] at hierarchical
    exact Bool.not_eq_true _ |>.mpr hierarchical

theorem Accepted.shaped {uri : URI} (accepted : uri.Accepted) : uri.Shaped := by
  cases accepted with
  | new spec made => exact shaped_of_parsed made
  | ofParts scheme authority path query fragment made =>
      rw [URI.ofParts] at made
      split at made
      · cases made
      · exact shaped_of_parsed made
  | ofServerParts scheme userInfo host port path query fragment made =>
      rw [URI.ofServerParts] at made
      split at made
      · cases made
        exact ⟨fun isOpaque => (by cases isOpaque), fun _ => ⟨[], rfl⟩⟩
      · split at made
        · cases made
        · exact shaped_of_parsed made

/-! ## When `equals` returns -/

theorem andAlso_ok {first second : Except Failure Bool} {flag : Bool}
    (returns : andAlso first second = .ok flag) :
    ∃ found, first = .ok found ∧ (found = true → second = .ok flag) ∧
      (found = false → flag = false) := by
  cases first with
  | error failure => cases returns
  | ok found =>
      refine ⟨found, rfl, ?_, ?_⟩
      · rintro rfl
        exact returns
      · rintro rfl
        cases returns
        rfl

theorem returns_andAlso {first second : Except Failure Bool} (returns : Returns first)
    (later : Returns second) : Returns (andAlso first second) := by
  rcases returns with ⟨found, rfl⟩
  cases found with
  | false => exact ⟨false, rfl⟩
  | true => exact later

/-- What returns true of both comparisons. -/
theorem andAlso_true {first second : Except Failure Bool}
    (returns : andAlso first second = .ok true) : first = .ok true ∧ second = .ok true := by
  rcases andAlso_ok returns with ⟨found, isFound, later, ends⟩
  cases found with
  | false => cases ends rfl
  | true => exact ⟨isFound, later rfl⟩

theorem returns_compareParts {first second : Option (List UInt8)}
    (fitsFirst : ∀ part ∈ first.toList, contained 0 part = true)
    (fitsSecond : ∀ part ∈ second.toList, contained 0 part = true) :
    Returns (compareParts escapedEqualsIgnoreCase first second) := by
  cases first with
  | none => cases second <;> exact ⟨_, rfl⟩
  | some first =>
      cases second with
      | none => exact ⟨_, rfl⟩
      | some second =>
          exact escapedEquals_returns (fitsFirst first List.mem_cons_self)
            (fitsSecond second List.mem_cons_self)

theorem returns_compareNonNull {first second : Option (List UInt8)}
    (given : ∃ part, first = some part) (given' : ∃ part, second = some part)
    (fitsFirst : ∀ part ∈ first.toList, contained 0 part = true)
    (fitsSecond : ∀ part ∈ second.toList, contained 0 part = true) :
    Returns (compareNonNull first second) := by
  rcases given with ⟨part, rfl⟩
  rcases given' with ⟨part', rfl⟩
  exact escapedEquals_returns (fitsFirst part List.mem_cons_self)
    (fitsSecond part' List.mem_cons_self)

/-- The parts of an authority that are compared. -/
theorem returns_equalAuthorities {uri other : URI} {authority otherAuthority : List UInt8}
    (fits : ∀ part ∈ (match some authority, uri.mHost with
      | none, _ => []
      | some authority, none => [authority]
      | some _, some _ => uri.mUserInfo.toList), contained 0 part = true)
    (otherFits : ∀ part ∈ (match some otherAuthority, other.mHost with
      | none, _ => []
      | some authority, none => [authority]
      | some _, some _ => other.mUserInfo.toList), contained 0 part = true) :
    Returns (equalAuthorities uri other authority otherAuthority) := by
  rw [equalAuthorities]
  cases uriHost : uri.mHost with
  | none =>
      cases otherHost : other.mHost with
      | none =>
          rw [uriHost] at fits
          rw [otherHost] at otherFits
          exact escapedEquals_returns (otherFits _ List.mem_cons_self) (fits _ List.mem_cons_self)
      | some _ => exact ⟨_, rfl⟩
  | some host =>
      cases otherHost : other.mHost with
      | none => exact ⟨_, rfl⟩
      | some _ =>
          rw [uriHost] at fits
          rw [otherHost] at otherFits
          dsimp only
          split
          · exact returns_compareParts fits otherFits
          · exact ⟨_, rfl⟩

theorem equals_returns {uri other : URI} (shaped : uri.Shaped) (otherShaped : other.Shaped)
    (fits : uri.Fits) (otherFits : other.Fits) : Returns (uri.equals other) := by
  rw [Fits, comparedParts, List.forall_mem_append] at fits otherFits
  refine returns_andAlso (returns_compareParts otherFits.1 fits.1) (returns_andAlso ?_ ?_)
  · cases other.mScheme <;> cases uri.mScheme <;> exact ⟨_, rfl⟩
  · cases isOpaque : uri.mOpaque with
    | true =>
        cases otherOpaque : other.mOpaque with
        | true =>
            rw [isOpaque, if_pos rfl] at fits
            rw [otherOpaque, if_pos rfl] at otherFits
            exact returns_compareNonNull (otherShaped.schemeSpecificPart otherOpaque)
              (shaped.schemeSpecificPart isOpaque) otherFits.2 fits.2
        | false => exact ⟨false, rfl⟩
    | false =>
        cases otherOpaque : other.mOpaque with
        | true => exact ⟨false, rfl⟩
        | false =>
            rw [isOpaque, if_neg Bool.false_ne_true, List.forall_mem_append,
              List.forall_mem_append] at fits
            rw [otherOpaque, if_neg Bool.false_ne_true, List.forall_mem_append,
              List.forall_mem_append] at otherFits
            refine returns_andAlso (returns_compareNonNull (shaped.path isOpaque)
              (otherShaped.path otherOpaque) fits.2.1 otherFits.2.1)
              (returns_andAlso (returns_compareParts otherFits.2.2.1 fits.2.2.1) ?_)
            cases uriAuthority : uri.mAuthority with
            | none => cases other.mAuthority <;> exact ⟨_, rfl⟩
            | some authority =>
                cases otherAuthority : other.mAuthority with
                | none => exact ⟨_, rfl⟩
                | some otherAuthority' =>
                    rw [uriAuthority] at fits
                    rw [otherAuthority] at otherFits
                    exact returns_equalAuthorities fits.2.2.2 otherFits.2.2.2

/-! ## A URI that is compared with an equal one -/

/-- A part that is compared with itself is equal, and its escapes fit. -/
theorem compareParts_self {part : Option (List UInt8)} {flag : Bool}
    (returns : compareParts escapedEqualsIgnoreCase part part = .ok flag) :
    flag = true ∧ ∀ text ∈ part.toList, contained 0 text = true := by
  cases part with
  | none =>
      cases returns
      exact ⟨rfl, List.forall_mem_nil _⟩
  | some text =>
      have self := escapedEquals_self returns
      exact ⟨self.1, List.forall_mem_singleton.mpr self.2⟩

theorem compareNonNull_self {part : Option (List UInt8)} {flag : Bool}
    (returns : compareNonNull part part = .ok flag) :
    flag = true ∧ ∀ text ∈ part.toList, contained 0 text = true := by
  cases part with
  | none => cases returns
  | some text =>
      have self := escapedEquals_self returns
      exact ⟨self.1, List.forall_mem_singleton.mpr self.2⟩

/-- The next comparison after one of a part with itself. -/
theorem andAlso_self {first second : Except Failure Bool} {prop : Prop}
    (self : ∀ flag, first = .ok flag → flag = true ∧ prop) {flag : Bool}
    (returns : andAlso first second = .ok flag) : prop ∧ second = .ok flag := by
  rcases andAlso_ok returns with ⟨found, isFound, later, _⟩
  rcases self found isFound with ⟨rfl, holds⟩
  exact ⟨holds, later rfl⟩

theorem fits_of_equals {uri : URI} (returns : Returns (uri.equals uri)) : uri.Fits := by
  rcases returns with ⟨flag, returns⟩
  rw [Fits, comparedParts, List.forall_mem_append]
  rcases andAlso_self (fun _ => compareParts_self) returns with ⟨fragment, returns⟩
  refine ⟨fragment, ?_⟩
  have scheme : ∀ flag, compareParts (fun first second => .ok (String.equalsIgnoreCase first second))
      uri.mScheme uri.mScheme = .ok flag → flag = true ∧ True := by
    intro flag compares
    cases isScheme : uri.mScheme with
    | none =>
        rw [isScheme] at compares
        cases compares
        exact ⟨rfl, trivial⟩
    | some scheme =>
        rw [isScheme, compareParts, String.equalsIgnoreCase, String.equals, beq_self_eq_true]
          at compares
        cases compares
        exact ⟨rfl, trivial⟩
  have rest := (andAlso_self scheme returns).2
  cases isOpaque : uri.mOpaque with
  | true =>
      rw [isOpaque] at rest
      rw [if_pos rfl]
      exact (compareNonNull_self rest).2
  | false =>
      rw [isOpaque] at rest
      rw [if_neg Bool.false_ne_true, List.forall_mem_append, List.forall_mem_append]
      rcases andAlso_self (fun _ => compareNonNull_self) rest with ⟨path, rest⟩
      rcases andAlso_self (fun _ => compareParts_self) rest with ⟨query, rest⟩
      refine ⟨path, query, ?_⟩
      cases isAuthority : uri.mAuthority with
      | none => exact List.forall_mem_nil _
      | some authority =>
          rw [isAuthority] at rest
          dsimp only at rest
          rw [equalAuthorities] at rest
          cases isHost : uri.mHost with
          | none =>
              rw [isHost] at rest
              exact List.forall_mem_singleton.mpr (escapedEquals_self rest).2
          | some host =>
              rw [isHost] at rest
              dsimp only at rest
              rw [String.equalsIgnoreCase, String.equals, beq_self_eq_true, beq_self_eq_true]
                at rest
              exact (compareParts_self rest).2

/-! ## Equal URIs have the same hash code -/

/-- Texts that are the same with their escapes in lower case. -/
def SameText (text other : List UInt8) : Prop :=
  lowered text = lowered other

instance : Std.Refl SameText where
  refl := fun _ => rfl

/-- Parts that are found equal. -/
def SamePart (same : List UInt8 → List UInt8 → Prop) (part other : Option (List UInt8)) : Prop :=
  part = none ∧ other = none ∨ ∃ text text', part = some text ∧ other = some text' ∧ same text text'

theorem samePart_of_compareParts {compare : List UInt8 → List UInt8 → Except Failure Bool}
    {part other : Option (List UInt8)} (equal : compareParts compare part other = .ok true) :
    SamePart (fun text text' => compare text text' = .ok true) part other := by
  cases part with
  | none =>
      cases other with
      | none => exact .inl ⟨rfl, rfl⟩
      | some text' => cases equal
  | some text =>
      cases other with
      | none => cases equal
      | some text' => exact .inr ⟨text, text', rfl, rfl, equal⟩

theorem samePart_of_compareNonNull {part other : Option (List UInt8)}
    (equal : compareNonNull part other = .ok true) :
    SamePart (fun text text' => escapedEqualsIgnoreCase text text' = .ok true) part other := by
  cases part with
  | none => cases equal
  | some text =>
      cases other with
      | none => cases equal
      | some text' => exact .inr ⟨text, text', rfl, rfl, equal⟩

/-- What is appended for parts that are found equal, between the same separators. -/
theorem sameTexts {same : List UInt8 → List UInt8 → Prop} {append : List UInt8 → List UInt8}
    (appended : ∀ text text', same text text' → SameText (append text) (append text'))
    (front back : List (List UInt8)) {part other : Option (List UInt8)}
    (equal : SamePart same part other) :
    List.Forall₂ SameText (part.elim [] fun text => front ++ append text :: back)
      (other.elim [] fun text => front ++ append text :: back) := by
  rcases equal with ⟨rfl, rfl⟩ | ⟨text, text', rfl, rfl, found⟩
  · exact .nil
  · exact List.rel_append (List.forall₂_refl front)
      (.cons (appended text text' found) (List.forall₂_refl back))

theorem sameText_of_escapedEquals (text text' : List UInt8)
    (equal : escapedEqualsIgnoreCase text text' = .ok true) :
    SameText (String.cStr text) (String.cStr text') :=
  lowered_of_escapedEquals equal

theorem sameText_of_equalsIgnoreCase (text text' : List UInt8)
    (equal : String.equalsIgnoreCase text text' = true) :
    SameText (String.cStr (String.toLowerCase text)) (String.cStr (String.toLowerCase text')) :=
  congrArg lowered (beq_iff_eq.mp equal)

theorem sameTexts_authority {uri other : URI} {authority otherAuthority : List UInt8}
    (isAuthority : uri.mAuthority = some authority)
    (isOtherAuthority : other.mAuthority = some otherAuthority)
    (equal : equalAuthorities uri other authority otherAuthority = .ok true) :
    List.Forall₂ SameText uri.authorityParts other.authorityParts := by
  rw [authorityParts, authorityParts, isAuthority, isOtherAuthority]
  refine .cons rfl ?_
  rw [equalAuthorities] at equal
  cases isHost : uri.mHost with
  | none =>
      rw [isHost] at equal
      cases isOtherHost : other.mHost with
      | none =>
          rw [isOtherHost] at equal
          exact .cons (sameText_of_escapedEquals otherAuthority authority equal).symm .nil
      | some otherHost =>
          rw [isOtherHost] at equal
          cases equal
  | some host =>
      rw [isHost] at equal
      cases isOtherHost : other.mHost with
      | none =>
          rw [isOtherHost] at equal
          cases equal
      | some otherHost =>
          rw [isOtherHost] at equal
          dsimp only at equal
          split at equal
          case isFalse => cases equal
          case isTrue same =>
            have parts := Bool.and_eq_true_iff.mp same
            rw [eq_of_beq parts.2]
            exact List.rel_append
              (sameTexts sameText_of_escapedEquals [] [[at_sign]] (samePart_of_compareParts equal))
              (.cons (sameText_of_equalsIgnoreCase host otherHost parts.1) (List.forall₂_refl _))

theorem sameTexts_of_equals {uri other : URI} (equal : uri.equals other = .ok true) :
    List.Forall₂ SameText uri.hashParts other.hashParts := by
  rw [equals_symmetric] at equal
  rcases andAlso_true equal with ⟨fragment, equal⟩
  rcases andAlso_true equal with ⟨scheme, equal⟩
  refine List.rel_append ?_ (List.rel_append ?_ ?_)
  · exact sameTexts (fun text text' found => sameText_of_equalsIgnoreCase text text'
      (Except.ok.inj found)) [] [[colon]] (samePart_of_compareParts scheme)
  · cases isOpaque : uri.mOpaque with
    | true =>
        cases otherOpaque : other.mOpaque with
        | true =>
            rw [isOpaque, otherOpaque] at equal
            exact sameTexts sameText_of_escapedEquals [] [] (samePart_of_compareNonNull equal)
        | false =>
            rw [isOpaque, otherOpaque] at equal
            cases equal
    | false =>
        cases otherOpaque : other.mOpaque with
        | true =>
            rw [isOpaque, otherOpaque] at equal
            cases equal
        | false =>
            rw [isOpaque, otherOpaque] at equal
            rcases andAlso_true equal with ⟨path, equal⟩
            rcases andAlso_true equal with ⟨query, equal⟩
            rw [compareNonNull_comm] at path
            refine List.rel_append ?_ (List.rel_append
              (sameTexts sameText_of_escapedEquals [] [] (samePart_of_compareNonNull path))
              (sameTexts sameText_of_escapedEquals [[questionMark]] []
                (samePart_of_compareParts query)))
            cases isAuthority : uri.mAuthority with
            | none =>
                cases isOtherAuthority : other.mAuthority with
                | none =>
                    rw [authorityParts, authorityParts, isAuthority, isOtherAuthority]
                    exact .nil
                | some otherAuthority =>
                    rw [isAuthority, isOtherAuthority] at equal
                    cases equal
            | some authority =>
                cases isOtherAuthority : other.mAuthority with
                | none =>
                    rw [isAuthority, isOtherAuthority] at equal
                    cases equal
                | some otherAuthority =>
                    rw [isAuthority, isOtherAuthority] at equal
                    dsimp only at equal
                    rw [equalAuthorities_comm] at equal
                    exact sameTexts_authority isAuthority isOtherAuthority equal
  · exact sameTexts sameText_of_escapedEquals [[numberSign]] [] (samePart_of_compareParts fragment)

theorem hashCode_eq_of_equals {uri other : URI} (aligned : uri.Aligned) (otherAligned : other.Aligned)
    (equal : uri.equals other = .ok true) : uri.hashCode = other.hashCode := by
  have fits := (contained_iff_pending (nonzero_hashed uri) 0).mpr aligned.pending_flatten
  have otherFits := (contained_iff_pending (nonzero_hashed other) 0).mpr otherAligned.pending_flatten
  have same : lowered uri.hashParts.flatten = lowered other.hashParts.flatten :=
    Escapes.folded_flatten aligned (sameTexts_of_equals equal)
  rw [hashCode, hashCode, getHashString, getHashString, convert_eq (nonzero_hashed uri) fits,
    convert_eq (nonzero_hashed other) otherFits, same]

end URI

end Mindroid
