import Mathlib.Data.List.TakeWhile
import Mindroid.Net.URI

/-!
# The syntax of URIs

The parts of a URI are cut off the string one after the other, without indices:
`[scheme:][//authority][path][?query][#fragment]`.  `parseURI` finds the same parts; it
accepts every string but the empty one and those whose scheme or `//` is followed by nothing.
-/

set_option autoImplicit false

namespace Mindroid

namespace URI

/-- The string up to the first such character that the functions of the C library see, or
all of it. -/
def upTo (c : UInt8) : List UInt8 → List UInt8
  | [] => []
  | other :: rest =>
      if other = c then [] else if other = 0 then other :: rest else other :: upTo c rest

/-- What is behind the first such character that the functions of the C library see. -/
def after (c : UInt8) : List UInt8 → Option (List UInt8)
  | [] => none
  | other :: rest =>
      if other = c then some rest else if other = 0 then none else after c rest

/-- The string up to the first of some characters or NUL. -/
def upToAny (chars string : List UInt8) : List UInt8 :=
  string.takeWhile fun c => !isOneOf chars c

/-- The string from the first of some characters or NUL on. -/
def fromAny (chars string : List UInt8) : List UInt8 :=
  string.dropWhile fun c => !isOneOf chars c

/-- A string without its fragment. -/
def body (string : List UInt8) : List UInt8 :=
  upTo numberSign string

/-- The characters that end a scheme or show that there is none. -/
def schemeEnds : List UInt8 :=
  [colon, slash, questionMark, numberSign]

/-- Cut the scheme off. -/
def cutScheme (string : List UInt8) : Option (List UInt8) × List UInt8 :=
  match fromAny schemeEnds string with
  | [] => (none, string)
  | c :: rest => if c = colon then (some (upToAny schemeEnds string), rest) else (none, string)

/-- Cut the authority off, unless it is empty. -/
def cutAuthority (string : List UInt8) : Option (List UInt8) × List UInt8 :=
  match string with
  | c :: d :: rest =>
      if c = slash ∧ d = slash then
        let authority := upToAny [slash, questionMark] rest
        (if authority = [] then none else some authority, fromAny [slash, questionMark] rest)
      else
        (none, string)
  | _ => (none, string)

/-- The scheme of a URI. -/
def schemeOf (string : List UInt8) : Option (List UInt8) :=
  (cutScheme (body string)).1

/-- The scheme-specific part of a URI. -/
def hierPart (string : List UInt8) : List UInt8 :=
  (cutScheme (body string)).2

def authorityOf (string : List UInt8) : Option (List UInt8) :=
  (cutAuthority (hierPart string)).1

def pathOf (string : List UInt8) : List UInt8 :=
  upTo questionMark (cutAuthority (hierPart string)).2

def queryOf (string : List UInt8) : Option (List UInt8) :=
  after questionMark (cutAuthority (hierPart string)).2

def fragmentOf (string : List UInt8) : Option (List UInt8) :=
  after numberSign string

/-- A URI with a scheme whose scheme-specific part does not begin with a slash. -/
def isOpaque (string : List UInt8) : Bool :=
  (schemeOf string).isSome && (hierPart string).head? != some slash

/-- All parts of a URI but those of its authority. -/
def cut (string : List UInt8) : URI where
  mString := string
  mScheme := schemeOf string
  mSchemeSpecificPart := some (hierPart string)
  mAuthority := if isOpaque string then none else authorityOf string
  mPath := if isOpaque string then none else some (pathOf string)
  mQuery := if isOpaque string then none else queryOf string
  mFragment := fragmentOf string
  mOpaque := isOpaque string

/-- A scheme without a scheme-specific part, or `//` at the end. -/
def Incomplete (string : List UInt8) : Prop :=
  (schemeOf string).isSome = true ∧ hierPart string = [] ∨
    hierPart string = [slash, slash] ∧ body string = string

instance (string : List UInt8) : Decidable (Incomplete string) :=
  inferInstanceAs (Decidable (_ ∨ _))

/-- What the parser misses in an incomplete string. -/
def missing (string : List UInt8) : Failure :=
  match hierPart string with
  | [] => invalid "Scheme-specific part expected"
  | _ :: _ => invalid "Authority expected"

/-! ## Indices and parts -/

/-- A string in which the C library does not see a character. -/
def Lacks (c : UInt8) (string : List UInt8) : Prop :=
  ∀ other ∈ string, other ≠ c ∧ other ≠ 0

theorem upTo_isInitial (c : UInt8) (string : List UInt8) : upTo c string <+: string := by
  induction string with
  | nil => exact List.prefix_rfl
  | cons other rest ih =>
      rw [upTo]
      split
      · exact List.nil_prefix
      · split
        · exact List.prefix_rfl
        · exact (List.prefix_cons_inj other).mpr ih

theorem upTo_append {c : UInt8} {before : List UInt8} (lacks : Lacks c before)
    (string : List UInt8) : upTo c (before ++ string) = before ++ upTo c string := by
  induction before with
  | nil => rfl
  | cons other rest ih =>
      rcases lacks other List.mem_cons_self with ⟨different, nonzero⟩
      rw [List.cons_append, upTo, if_neg different, if_neg nonzero,
        ih fun later member => lacks later (List.mem_cons_of_mem _ member), List.cons_append]

theorem upTo_after (c : UInt8) (string : List UInt8) :
    upTo c string ++ (after c string).elim [] (c :: ·) = string := by
  induction string with
  | nil => rfl
  | cons other rest ih =>
      rw [upTo, after]
      split
      case isTrue same => rw [same, List.nil_append, Option.elim_some]
      case isFalse =>
        split
        · exact List.append_nil _
        · exact congrArg (other :: ·) ih

/-- A character that is seen first is found where it is. -/
theorem upTo_found {c : UInt8} {before : List UInt8} (lacks : Lacks c before)
    (behind : List UInt8) :
    upTo c (before ++ c :: behind) = before ∧ after c (before ++ c :: behind) = some behind := by
  induction before with
  | nil => exact ⟨if_pos rfl, if_pos rfl⟩
  | cons other rest ih =>
      rcases lacks other List.mem_cons_self with ⟨different, nonzero⟩
      rcases ih fun later member => lacks later (List.mem_cons_of_mem _ member) with
        ⟨front, found⟩
      rw [List.cons_append, upTo, after, if_neg different, if_neg different, if_neg nonzero,
        if_neg nonzero]
      exact ⟨congrArg (other :: ·) front, found⟩

/-- A character that is not seen ends nothing. -/
theorem upTo_lacks {c : UInt8} {string : List UInt8} (lacks : Lacks c string) :
    upTo c string = string ∧ after c string = none := by
  induction string with
  | nil => exact ⟨rfl, rfl⟩
  | cons other rest ih =>
      rcases lacks other List.mem_cons_self with ⟨different, nonzero⟩
      rcases ih fun later member => lacks later (List.mem_cons_of_mem _ member) with
        ⟨front, found⟩
      rw [upTo, after, if_neg different, if_neg different, if_neg nonzero, if_neg nonzero]
      exact ⟨congrArg (other :: ·) front, found⟩

theorem length_upTo_take (c : UInt8) (string : List UInt8) (count : Nat) :
    (upTo c (string.take count)).length = min (upTo c string).length count := by
  induction string generalizing count with
  | nil => rw [List.take_nil, upTo, List.length_nil, Nat.zero_min]
  | cons other rest ih =>
      cases count with
      | zero => rw [List.take_zero, upTo, List.length_nil, Nat.min_zero]
      | succ count =>
          rw [List.take_succ_cons, upTo, upTo]
          split
          · rw [List.length_nil, Nat.zero_min]
          · split
            · rw [List.length_cons, List.length_cons, List.length_take, Nat.succ_min_succ,
                Nat.min_comm]
            · rw [List.length_cons, List.length_cons, ih, Nat.succ_min_succ]

/-- What `strchr` finds. -/
theorem string_indexOf_eq {c : UInt8} (nonzero : c ≠ 0) (string : List UInt8) :
    String.indexOf string c =
      if (upTo c string).length < string.length then some (upTo c string).length else none := by
  induction string with
  | nil =>
      have different : ((0 : UInt8) == c) = false := beq_false_of_ne nonzero.symm
      simp [String.indexOf, String.cStr, upTo, List.findIdx?_cons, different]
  | cons other rest ih =>
      rw [String.indexOf, String.cStr] at ih ⊢
      by_cases zero : other = 0
      · have different : ((0 : UInt8) == c) = false := beq_false_of_ne nonzero.symm
        simp [zero, upTo, nonzero.symm, List.findIdx?_cons, different]
      · by_cases same : other = c
        · simp [same, upTo, nonzero, List.findIdx?_cons]
        · have different : (other == c) = false := beq_false_of_ne same
          have nonzeroOther : (other != 0) = true := bne_iff_ne.mpr zero
          rw [List.takeWhile_cons_of_pos (by exact nonzeroOther), List.cons_append,
            List.findIdx?_cons, different, ih, upTo, if_neg same, if_neg zero,
            if_neg Bool.false_ne_true, List.length_cons, List.length_cons]
          by_cases found : (upTo c rest).length < rest.length
          · rw [if_pos found, if_pos (Nat.succ_lt_succ found)]
            rfl
          · rw [if_neg found, if_neg fun later => found (Nat.lt_of_succ_lt_succ later)]
            rfl

theorem indexOf_eq {c : UInt8} (nonzero : c ≠ 0) {string : List UInt8} {start endIndex : Nat}
    (inside : endIndex ≤ string.length) :
    indexOf string c start endIndex = (upTo c (string.take endIndex)).length := by
  have bounded := (upTo_isInitial c string).length_le
  rw [indexOf, string_indexOf_eq nonzero, length_upTo_take]
  by_cases found : (upTo c string).length < string.length
  · rw [if_pos found]
    dsimp only
    split <;> omega
  · rw [if_neg found]
    dsimp only
    omega

theorem length_upToAny (chars string : List UInt8) :
    (upToAny chars string).length =
      (string.findIdx? (isOneOf chars)).getD string.length := by
  induction string with
  | nil => rfl
  | cons c rest ih =>
      rw [upToAny] at ih ⊢
      rw [List.findIdx?_cons]
      by_cases found : isOneOf chars c = true
      · rw [List.takeWhile_cons_of_neg (by simp [found]), if_pos found]
        rfl
      · rw [List.takeWhile_cons_of_pos (by simp [found]), if_neg found, List.length_cons, ih]
        cases rest.findIdx? (isOneOf chars) <;> rfl

theorem indexOfAny_eq {chars string : List UInt8} {start endIndex : Nat}
    (starts : start < string.length) (ordered : start ≤ endIndex)
    (inside : endIndex ≤ string.length) :
    indexOfAny string chars start endIndex =
      .ok (start + (upToAny chars ((string.take endIndex).drop start)).length) := by
  rw [indexOfAny, if_neg (by omega), length_upToAny]
  cases ((string.take endIndex).drop start).findIdx? (isOneOf chars) with
  | some distance => rfl
  | none =>
      simp only [Option.getD_none, List.length_drop, List.length_take]
      rw [Nat.min_eq_left inside, Nat.add_sub_cancel' ordered]

theorem upToAny_append {chars before : List UInt8}
    (free : ∀ c ∈ before, isOneOf chars c = false) (string : List UInt8) :
    upToAny chars (before ++ string) = before ++ upToAny chars string := by
  apply List.takeWhile_append_of_pos
  intro c member
  rw [free c member]
  rfl

theorem upToAny_append_fromAny (chars string : List UInt8) :
    upToAny chars string ++ fromAny chars string = string :=
  List.takeWhile_append_dropWhile

theorem fromAny_of_upToAny_nil {chars string : List UInt8} (empty : upToAny chars string = []) :
    fromAny chars string = string := by
  have whole := upToAny_append_fromAny chars string
  rw [empty, List.nil_append] at whole
  exact whole

theorem isOneOf_of_fromAny {chars string : List UInt8} {c : UInt8} {rest : List UInt8}
    (behind : fromAny chars string = c :: rest) : isOneOf chars c = true := by
  have ends := List.head?_dropWhile_not (fun c => !isOneOf chars c) string
  rw [fromAny] at behind
  rw [behind] at ends
  simpa using ends

/-- The characters of a part are none of those that end it. -/
theorem isOneOf_of_mem_upToAny {chars string : List UInt8} {c : UInt8}
    (member : c ∈ upToAny chars string) : isOneOf chars c = false := by
  have holds := List.mem_takeWhile_imp member
  rw [Bool.not_eq_true'] at holds
  exact holds

theorem ne_of_isOneOf {chars : List UInt8} {c other : UInt8} (free : isOneOf chars c = false)
    (ends : other ∈ chars) : c ≠ other ∧ c ≠ 0 := by
  rw [isOneOf, Bool.or_eq_false_iff] at free
  constructor
  · rintro rfl
    rw [List.contains_iff_mem.mpr ends] at free
    exact Bool.noConfusion free.1
  · exact beq_eq_false_iff_ne.mp free.2

/-- `strncmp` with a whole string. -/
theorem take_cStr_eq_iff {other : List UInt8} (nonzero : ∀ c ∈ other, c ≠ 0)
    (string : List UInt8) : (String.cStr string).take other.length = other ↔ other <+: string := by
  induction other generalizing string with
  | nil => exact ⟨fun _ => List.nil_prefix, fun _ => List.take_zero⟩
  | cons c rest ih =>
      cases string with
      | nil => simp [String.cStr]
      | cons d string =>
          have isNonzero : c ≠ 0 := nonzero c List.mem_cons_self
          have nonzeroLater : ∀ other ∈ rest, other ≠ 0 := fun other member =>
            nonzero other (List.mem_cons_of_mem _ member)
          have later := ih nonzeroLater string
          rw [String.cStr] at later ⊢
          rw [List.cons_prefix_cons, List.length_cons]
          by_cases zero : d = 0
          · rw [List.takeWhile_cons_of_neg (by simp [zero]), List.take_nil]
            constructor
            · intro same
              exact absurd same.symm (List.cons_ne_nil _ _)
            · intro same
              exact absurd (same.1.trans zero) isNonzero
          · rw [List.takeWhile_cons_of_pos (by simp [zero]), List.take_succ_cons,
              List.cons.injEq, later]
            exact and_congr eq_comm Iff.rfl

/-- `regionMatches` with the whole of another string. -/
theorem regionMatches_iff (string other : List UInt8) {toffset : Nat}
    (inside : toffset ≤ string.length) (nonzero : ∀ c ∈ other, c ≠ 0) :
    String.regionMatches string toffset other 0 other.length = true ↔
      other <+: string.drop toffset := by
  have own : String.sizeSub string.length toffset = string.length - toffset := if_pos inside
  have others : String.sizeSub other.length 0 = other.length := if_pos (Nat.zero_le _)
  have whole : String.cStr other = other :=
    List.takeWhile_eq_self_iff.mpr fun c member => bne_iff_ne.mpr (nonzero c member)
  rw [String.regionMatches, own, others, if_neg (Nat.lt_irrefl _)]
  by_cases short : string.length - toffset < other.length
  · rw [if_pos short]
    constructor
    · exact nofun
    · intro isPrefix
      have longer := isPrefix.length_le
      rw [List.length_drop] at longer
      exact absurd longer (Nat.not_le.mpr short)
  · rw [if_neg short, String.sameChars, beq_iff_eq, List.drop_zero, whole, List.take_length]
    exact take_cStr_eq_iff nonzero _

/-! ## What the parser finds -/

/-- The parts of a URI that name a binder. -/
structure Parsed (uri : URI) (string : List UInt8) (scheme authority path : Option (List UInt8)) :
    Prop where
  string : uri.mString = string
  scheme : uri.mScheme = scheme
  authority : uri.mAuthority = authority
  path : uri.mPath = path

variable {uri : URI} {string : List UInt8} {scheme authority path : Option (List UInt8)}

theorem lastIndexOf_le {c : UInt8} {index : Nat}
    (found : String.lastIndexOf string c = some index) : index ≤ string.length := by
  rw [String.lastIndexOf] at found
  rcases Option.map_eq_some_iff.mp found with ⟨distance, _, rfl⟩
  exact Nat.le_trans (Nat.sub_le _ _) (String.length_cStr_le string)

theorem indexOf_lt {c : UInt8} (nonzero : c ≠ 0) {index : Nat}
    (found : String.indexOf string c = some index) : index < string.length := by
  rw [string_indexOf_eq nonzero] at found
  split at found
  case isTrue inside =>
    cases found
    exact inside
  case isFalse => cases found

/-- The parts that `parseAuthority` does not touch. -/
structure SameParts (uri uri' : URI) : Prop where
  string : uri'.mString = uri.mString
  scheme : uri'.mScheme = uri.mScheme
  schemeSpecificPart : uri'.mSchemeSpecificPart = uri.mSchemeSpecificPart
  authority : uri'.mAuthority = uri.mAuthority
  path : uri'.mPath = uri.mPath
  query : uri'.mQuery = uri.mQuery
  fragment : uri'.mFragment = uri.mFragment
  isOpaque : uri'.mOpaque = uri.mOpaque

theorem SameParts.refl (uri : URI) : SameParts uri uri :=
  ⟨rfl, rfl, rfl, rfl, rfl, rfl, rfl, rfl⟩

/-- The parser finds the parts of the authority or, where they have to be there, complains. -/
def Settles (uri : URI) (server : Bool) (result : Except Failure URI) : Prop :=
  (∃ uri', result = .ok uri' ∧ SameParts uri uri') ∨
    server = true ∧ ∃ message, result = .error (invalid message)

theorem setHost_settles (uri : URI) (userInfo : Option (List UInt8)) (host : List UInt8)
    (port : Int32) (server : Bool) :
    Settles uri server (uri.setHost userInfo host port server) := by
  rw [setHost]
  split
  · split
    case isTrue strict => exact .inr ⟨strict, _, rfl⟩
    case isFalse => exact .inl ⟨uri, rfl, .refl uri⟩
  · exact .inl ⟨_, rfl, rfl, rfl, rfl, rfl, rfl, rfl, rfl, rfl⟩

/-- The parser gives up on a port that is no number. -/
theorem parsePort_cases (port : List UInt8) (server : Bool) :
    (∃ value, parsePort port server = .ok value) ∨
      server = true ∧ ∃ message, parsePort port server = .error (invalid message) := by
  rw [parsePort]
  rcases Integer.valueOf_cases port 10 with ⟨value, valid⟩ | ⟨message, thrown⟩
  · rw [valid]
    dsimp only
    split
    · split
      case isTrue strict => exact .inr ⟨strict, _, rfl⟩
      case isFalse => exact .inl ⟨none, rfl⟩
    · exact .inl ⟨some value, rfl⟩
  · rw [thrown]
    dsimp only
    split
    case isTrue strict => exact .inr ⟨strict, _, rfl⟩
    case isFalse => exact .inl ⟨none, rfl⟩

theorem parseHost_settles (uri : URI) (userInfo : Option (List UInt8)) (host : List UInt8)
    (server : Bool) : Settles uri server (uri.parseHost userInfo host server) := by
  rw [parseHost]
  cases found : String.lastIndexOf host colon with
  | none => exact setHost_settles uri userInfo host (-1) server
  | some portIndex =>
      dsimp only
      split
      · rw [String.substring_ok (Nat.zero_le _) (lastIndexOf_le found)]
        simp only [bind, Except.bind]
        split
        case isTrue inside =>
          rw [String.substringFrom_ok (Nat.le_of_lt inside)]
          rcases parsePort_cases (host.drop (portIndex + 1)) server with
            ⟨value, parsedPort⟩ | ⟨strict, message, refused⟩
          · simp only [parsedPort]
            cases value with
            | none => exact .inl ⟨uri, rfl, .refl uri⟩
            | some port => exact setHost_settles uri userInfo _ port server
          · simp only [refused]
            exact .inr ⟨strict, message, rfl⟩
        case isFalse => exact setHost_settles uri userInfo _ (-1) server
      · exact setHost_settles uri userInfo host (-1) server

theorem parseAuthority_settles (uri : URI) (server : Bool) :
    Settles uri server (uri.parseAuthority server) := by
  rw [parseAuthority]
  cases uri.mAuthority with
  | none => exact .inl ⟨uri, rfl, .refl uri⟩
  | some text =>
      dsimp only
      cases found : String.indexOf text at_sign with
      | none => exact parseHost_settles uri none text server
      | some userIndex =>
          have inside := indexOf_lt (by decide) found
          dsimp only
          rw [String.substring_ok (Nat.zero_le _) (Nat.le_of_lt inside),
            String.substringFrom_ok inside]
          exact parseHost_settles uri _ _ server

theorem parseAuthority_keeps (uri : URI) :
    ∃ uri', uri.parseAuthority false = .ok uri' ∧ SameParts uri uri' := by
  cases parseAuthority_settles uri false with
  | inl accepts => exact accepts
  | inr refuses => exact absurd refuses.1 Bool.false_ne_true

/-- The path ends before the query, which does not begin before the path. -/
theorem parsePath_eq (uri : URI) {before rest fragment : List UInt8}
    (isString : uri.mString = string)
    (split : string = before ++ rest ++ fragment) (lacks : Lacks questionMark before)
    (noQuery : uri.mQuery = none) (server : Bool) :
    uri.parsePath before.length (before ++ rest).length server =
      parseAuthority { uri with
        mPath := some (upTo questionMark rest)
        mQuery := after questionMark rest } server := by
  have inside : (before ++ rest).length ≤ string.length := by
    rw [split]
    exact (List.prefix_append (before ++ rest) fragment).length_le
  have front : string.take (before ++ rest).length = before ++ rest := by
    rw [split, List.take_left']
    rfl
  have queryStart : indexOf string questionMark before.length (before ++ rest).length =
      before.length + (upTo questionMark rest).length := by
    rw [indexOf_eq (by decide) inside, front, upTo_append lacks, List.length_append]
  have total : (before ++ rest).length = before.length + rest.length := List.length_append
  have bounded : (upTo questionMark rest).length ≤ rest.length :=
    (upTo_isInitial questionMark rest).length_le
  have starts : string.drop before.length = rest ++ fragment := by
    rw [split, List.append_assoc, List.drop_left]
  have found : String.substring string before.length
      (before.length + (upTo questionMark rest).length) = .ok (upTo questionMark rest) := by
    rw [String.substring_ok (Nat.le_add_right _ _) (by omega), Nat.add_sub_cancel_left, starts,
      List.take_append_of_le_length bounded]
    exact congrArg _ (List.prefix_iff_eq_take.mp (upTo_isInitial questionMark rest)).symm
  have joined := upTo_after questionMark rest
  rw [parsePath, isString]
  simp only [queryStart, found, bind, Except.bind]
  cases asked : after questionMark rest with
  | none =>
      rw [asked, Option.elim_none, List.append_nil] at joined
      have ended : ¬before.length + (upTo questionMark rest).length < (before ++ rest).length := by
        rw [joined, total]
        exact Nat.lt_irrefl _
      rw [if_neg ended, ← noQuery]
  | some query =>
      rw [asked, Option.elim_some] at joined
      have size : rest.length = (upTo questionMark rest).length + (query.length + 1) := by
        conv_lhs => rw [← joined, List.length_append, List.length_cons]
      have cutOff : String.substring string
          (before.length + (upTo questionMark rest).length + 1) (before ++ rest).length =
            .ok query := by
        have behind : string.drop (before.length + (upTo questionMark rest).length + 1) =
            query ++ fragment := by
          have parted : rest ++ fragment =
              upTo questionMark rest ++ questionMark :: (query ++ fragment) := by
            conv_lhs => rw [← joined]
            exact List.append_assoc _ _ _
          rw [Nat.add_assoc, ← List.drop_drop, starts, parted, ← List.drop_drop, List.drop_left]
          rfl
        have count : (before ++ rest).length -
            (before.length + (upTo questionMark rest).length + 1) = query.length := by
          omega
        rw [String.substring_ok (by omega) inside, behind, count, List.take_left]
      rw [if_pos (by omega), cutOff]

theorem Lacks.append {c : UInt8} {before after : List UInt8} (lacks : Lacks c before)
    (lacksAfter : Lacks c after) : Lacks c (before ++ after) := by
  intro other member
  rcases List.mem_append.mp member with inBefore | inAfter
  · exact lacks other inBefore
  · exact lacksAfter other inAfter

theorem lacks_of_free {c : UInt8} {chars string : List UInt8} (ends : c ∈ chars)
    (free : ∀ other ∈ string, isOneOf chars other = false) : Lacks c string :=
  fun other member => ne_of_isOneOf (free other member) ends

/-- What follows the body of a string: nothing or a fragment. -/
def Trails (fragment : List UInt8) : Prop :=
  fragment = [] ∨ ∃ rest, fragment = numberSign :: rest

theorem body_split (string : List UInt8) :
    ∃ fragment, string = body string ++ fragment ∧ Trails fragment := by
  induction string with
  | nil => exact ⟨[], rfl, .inl rfl⟩
  | cons c rest ih =>
      rw [body, upTo]
      split
      case isTrue same => exact ⟨c :: rest, rfl, .inr ⟨rest, by rw [same]⟩⟩
      case isFalse =>
        split
        · exact ⟨[], (List.append_nil _).symm, .inl rfl⟩
        · rcases ih with ⟨fragment, split, trails⟩
          exact ⟨fragment, congrArg (c :: ·) split, trails⟩

/-- A scheme-specific part and a fragment begin with the slashes of the former. -/
theorem slashes_prefix_iff {part fragment : List UInt8} (trails : Trails fragment) :
    [slash, slash] <+: part ++ fragment ↔ ∃ rest, part = slash :: slash :: rest := by
  constructor
  · rintro ⟨rest, same⟩
    rcases part with _ | ⟨c, _ | ⟨d, rest'⟩⟩
    · rcases trails with rfl | ⟨behind, rfl⟩ <;> cases same
    · rcases trails with rfl | ⟨behind, rfl⟩ <;> cases same
    · cases same
      exact ⟨rest', rfl⟩
  · rintro ⟨rest, rfl⟩
    exact ⟨rest ++ fragment, rfl⟩

theorem cutAuthority_slashes (rest : List UInt8) :
    cutAuthority (slash :: slash :: rest) =
      (if upToAny [slash, questionMark] rest = [] then none
        else some (upToAny [slash, questionMark] rest),
        fromAny [slash, questionMark] rest) := by
  rw [cutAuthority, if_pos ⟨rfl, rfl⟩]

theorem cutAuthority_other {part : List UInt8} (other : ∀ rest, part ≠ slash :: slash :: rest) :
    cutAuthority part = (none, part) := by
  rcases part with _ | ⟨c, _ | ⟨d, rest⟩⟩
  · rfl
  · rfl
  · apply if_neg
    rintro ⟨rfl, rfl⟩
    exact other rest rfl

/-- The parser cuts the authority off. -/
theorem parseHierarchical_eq (uri : URI) (before part : List UInt8) {fragment : List UInt8}
    (isString : uri.mString = string) (noAuthority : uri.mAuthority = none)
    (noQuery : uri.mQuery = none) (split : string = before ++ part ++ fragment)
    (lacks : Lacks questionMark before) (trails : Trails fragment) (server : Bool) :
    uri.parseHierarchical before.length (before ++ part).length server =
      if part = [slash, slash] ∧ fragment = [] then
        .error (invalid "Authority expected")
      else
        parseAuthority { uri with
          mOpaque := false
          mSchemeSpecificPart := some part
          mAuthority := (cutAuthority part).1
          mPath := some (upTo questionMark (cutAuthority part).2)
          mQuery := after questionMark (cutAuthority part).2 } server := by
  subst isString
  have total : uri.mString.length = before.length + part.length + fragment.length := by
    rw [split, List.length_append, List.length_append]
  have length : (before ++ part).length = before.length + part.length := List.length_append
  have front : uri.mString.take (before ++ part).length = before ++ part := by
    rw [split, List.take_left']
    rfl
  have starts : uri.mString.drop before.length = part ++ fragment := by
    rw [split, List.append_assoc, List.drop_left]
  have substring :
      String.substring uri.mString before.length (before ++ part).length = .ok part := by
    rw [String.substring_ok (by omega) (by omega), starts, length, Nat.add_sub_cancel_left,
      List.take_left]
  have matches_iff : String.regionMatches uri.mString before.length [slash, slash] 0 2 = true ↔
      ∃ rest, part = slash :: slash :: rest := by
    rw [← slashes_prefix_iff trails, ← starts]
    exact regionMatches_iff uri.mString [slash, slash] (by omega) (by simp [slash])
  by_cases slashes : ∃ rest, part = slash :: slash :: rest
  · rcases slashes with ⟨rest, rfl⟩
    rw [parseHierarchical, substring]
    simp only [bind, Except.bind, matches_iff.mpr ⟨rest, rfl⟩, if_true]
    by_cases ended : rest = [] ∧ fragment = []
    · rcases ended with ⟨rfl, rfl⟩
      rw [if_pos (show before.length + 2 = uri.mString.length from total.symm), if_pos ⟨rfl, rfl⟩]
    · have continues : ¬(slash :: slash :: rest = [slash, slash] ∧ fragment = []) := fun same =>
        ended ⟨List.cons_inj_right _ |>.mp (List.cons_inj_right _ |>.mp same.1), same.2⟩
      have lengths : (slash :: slash :: rest).length = rest.length + 2 := rfl
      have going : before.length + 2 ≠ uri.mString.length := by
        intro same
        apply ended
        constructor <;> apply List.length_eq_zero_iff.mp <;> omega
      have start : before.length + 2 = (before ++ [slash, slash]).length := by
        rw [List.length_append]
        rfl
      have whole : before ++ slash :: slash :: rest = before ++ [slash, slash] ++ rest := by
        rw [List.append_assoc]
        rfl
      have behind : (before ++ slash :: slash :: rest).drop (before.length + 2) = rest := by
        rw [whole, List.drop_left' start.symm]
      have pathStart : indexOfAny uri.mString [slash, questionMark] (before.length + 2)
          (before ++ slash :: slash :: rest).length =
            .ok (before.length + 2 + (upToAny [slash, questionMark] rest).length) := by
        rw [indexOfAny_eq (by omega) (by omega) (by omega), front, behind]
      have slashesLack : Lacks questionMark (before ++ [slash, slash]) := by
        apply lacks.append
        intro other member
        rcases List.mem_pair.mp member with rfl | rfl <;> decide
      rw [if_neg going, pathStart, if_neg continues, cutAuthority_slashes]
      simp only []
      by_cases empty : upToAny [slash, questionMark] rest = []
      · rw [empty, List.length_nil, Nat.add_zero, if_neg (Nat.lt_irrefl _), if_pos rfl,
          fromAny_of_upToAny_nil empty, start, whole]
        have wholeString : uri.mString = before ++ [slash, slash] ++ rest ++ fragment := by
          rw [split, whole]
        rw [parsePath_eq { uri with
          mOpaque := false
          mSchemeSpecificPart := some (slash :: slash :: rest) } rfl wholeString slashesLack
          noQuery, ← noAuthority]
      · have positive : 0 < (upToAny [slash, questionMark] rest).length :=
          List.length_pos_iff.mpr empty
        have isPrefix : upToAny [slash, questionMark] rest <+: rest := List.takeWhile_prefix _
        have cutOff : String.substring uri.mString (before.length + 2)
            (before.length + 2 + (upToAny [slash, questionMark] rest).length) =
              .ok (upToAny [slash, questionMark] rest) := by
          have bounded := isPrefix.length_le
          rw [String.substring_ok (by omega) (by omega), Nat.add_sub_cancel_left, split, whole,
            start, List.append_assoc, List.drop_left, List.take_append_of_le_length bounded]
          exact congrArg _ (List.prefix_iff_eq_take.mp isPrefix).symm
        have authorityLack : Lacks questionMark
            (before ++ [slash, slash] ++ upToAny [slash, questionMark] rest) := by
          apply slashesLack.append
          exact lacks_of_free (by decide) fun other member => isOneOf_of_mem_upToAny member
        have ahead : before.length + 2 + (upToAny [slash, questionMark] rest).length =
            (before ++ [slash, slash] ++ upToAny [slash, questionMark] rest).length := by
          rw [List.length_append, ← start]
        have wholeAhead : before ++ slash :: slash :: rest =
            before ++ [slash, slash] ++ upToAny [slash, questionMark] rest ++
              fromAny [slash, questionMark] rest := by
          rw [whole, List.append_assoc (before ++ [slash, slash]), upToAny_append_fromAny]
        have wholeString : uri.mString = before ++ [slash, slash] ++
            upToAny [slash, questionMark] rest ++ fromAny [slash, questionMark] rest ++
              fragment := by
          rw [split, wholeAhead]
        rw [if_pos (Nat.lt_add_of_pos_right positive), cutOff, if_neg empty]
        simp only []
        rw [ahead, wholeAhead, parsePath_eq { uri with
          mOpaque := false
          mSchemeSpecificPart := some (slash :: slash :: rest)
          mAuthority := some (upToAny [slash, questionMark] rest) } rfl wholeString
          authorityLack noQuery]
  · have unmatched : ¬String.regionMatches uri.mString before.length [slash, slash] 0 2 = true :=
      fun matched => slashes (matches_iff.mp matched)
    have other : ∀ rest, part ≠ slash :: slash :: rest := fun rest same => slashes ⟨rest, same⟩
    rw [parseHierarchical, substring]
    simp only [bind, Except.bind]
    have continues : ¬(part = [slash, slash] ∧ fragment = []) := fun ended => other [] ended.1
    rw [if_neg unmatched, cutAuthority_other other, if_neg continues,
      parsePath_eq { uri with mOpaque := false, mSchemeSpecificPart := some part } rfl split lacks
        noQuery, ← noAuthority]

/-- A colon comes first, or another separator, or none. -/
theorem cutScheme_cases (part : List UInt8) :
    (cutScheme part = (none, part) ∧ ∀ rest, fromAny schemeEnds part ≠ colon :: rest) ∨
      ∃ rest, cutScheme part = (some (upToAny schemeEnds part), rest) ∧
        fromAny schemeEnds part = colon :: rest := by
  rw [cutScheme]
  cases behind : fromAny schemeEnds part with
  | nil => exact .inl ⟨rfl, nofun⟩
  | cons c rest =>
      by_cases isColon : c = colon
      · exact .inr ⟨rest, if_pos isColon, by rw [isColon]⟩
      · refine .inl ⟨if_neg isColon, ?_⟩
        rintro rest ⟨⟩
        exact isColon rfl

theorem free_scheme (part : List UInt8) :
    (∀ c ∈ upToAny schemeEnds part, isOneOf schemeEnds c = false) ∧
      ∀ c ∈ upToAny schemeEnds part, isOneOf [slash, questionMark, numberSign] c = false := by
  have free : ∀ c ∈ upToAny schemeEnds part, isOneOf schemeEnds c = false :=
    fun c member => isOneOf_of_mem_upToAny member
  refine ⟨free, ?_⟩
  intro c member
  have all := free c member
  rw [isOneOf, schemeEnds, List.contains_cons, Bool.or_assoc, Bool.or_eq_false_iff] at all
  exact all.2

section Scheme

variable {part fragment : List UInt8}

theorem colonIndex_eq (split : string = part ++ fragment) :
    indexOf string colon 0 part.length =
      (upToAny schemeEnds part).length + (upTo colon (fromAny schemeEnds part)).length := by
  have inside : part.length ≤ string.length := by
    rw [split]
    exact (List.prefix_append part fragment).length_le
  rw [indexOf_eq (by decide) inside, split, List.take_left, ← List.length_append,
    ← upTo_append (lacks_of_free (by decide) (free_scheme part).1), upToAny_append_fromAny]

theorem separatorIndex_eq (split : string = part ++ fragment) (nonempty : string ≠ []) :
    indexOfAny string [slash, questionMark, numberSign] 0 part.length =
      .ok ((upToAny schemeEnds part).length +
        (upToAny [slash, questionMark, numberSign] (fromAny schemeEnds part)).length) := by
  have inside : part.length ≤ string.length := by
    rw [split]
    exact (List.prefix_append part fragment).length_le
  have front : string.take part.length = part := by
    rw [split, List.take_left]
  rw [indexOfAny_eq (List.length_pos_iff.mpr nonempty) (Nat.zero_le _) inside, front,
    List.drop_zero, Nat.zero_add, ← List.length_append, ← upToAny_append (free_scheme part).2,
    upToAny_append_fromAny]

theorem parseScheme_unparted (isString : uri.mString = string)
    (split : string = part ++ fragment) (nonempty : string ≠ [])
    (unparted : ∀ rest, fromAny schemeEnds part ≠ colon :: rest) (server : Bool) :
    uri.parseScheme part.length server = uri.parseHierarchical 0 part.length server := by
  rw [parseScheme, isString, colonIndex_eq split, separatorIndex_eq split nonempty]
  simp only [bind, Except.bind]
  apply if_neg
  cases behind : fromAny schemeEnds part with
  | nil => exact Nat.lt_irrefl _
  | cons c rest =>
      have other : c ≠ colon := fun isColon => unparted rest (by rw [behind, isColon])
      have ends := isOneOf_of_fromAny behind
      rw [isOneOf, schemeEnds, List.contains_cons, beq_false_of_ne other, Bool.false_or] at ends
      rw [upToAny, upToAny, List.takeWhile_cons_of_neg]
      · exact Nat.not_lt.mpr (Nat.le_add_right _ _)
      · rw [isOneOf, ends]
        exact Bool.false_ne_true

theorem parseScheme_parted (isString : uri.mString = string)
    (split : string = part ++ fragment) (nonempty : string ≠ []) {rest : List UInt8}
    (parted : fromAny schemeEnds part = colon :: rest) (server : Bool) :
    uri.parseScheme part.length server =
      if rest = [] then
        .error (invalid "Scheme-specific part expected")
      else if rest.head? = some slash then
        parseHierarchical { uri with mScheme := some (upToAny schemeEnds part) }
          (upToAny schemeEnds part ++ [colon]).length part.length server
      else
        .ok { uri with
          mScheme := some (upToAny schemeEnds part)
          mOpaque := true
          mSchemeSpecificPart := some rest } := by
  have whole : part = upToAny schemeEnds part ++ colon :: rest := by
    rw [← parted, upToAny_append_fromAny]
  have total : part.length = (upToAny schemeEnds part).length + (rest.length + 1) := by
    conv_lhs => rw [whole, List.length_append, List.length_cons]
  have inside : part.length ≤ string.length := by
    rw [split]
    exact (List.prefix_append part fragment).length_le
  have ordered : (upToAny schemeEnds part).length + (upTo colon (colon :: rest)).length <
      (upToAny schemeEnds part).length +
        (upToAny [slash, questionMark, numberSign] (colon :: rest)).length := by
    apply Nat.add_lt_add_left
    rw [upTo, if_pos rfl, upToAny, List.takeWhile_cons_of_pos (by decide)]
    exact Nat.succ_pos _
  have front : string = upToAny schemeEnds part ++ [colon] ++ (rest ++ fragment) := by
    conv_lhs => rw [split, whole]
    rw [List.append_assoc, List.append_assoc]
    rfl
  have behind : (upToAny schemeEnds part).length + 1 =
      (upToAny schemeEnds part ++ [colon]).length := by
    rw [List.length_append]
    rfl
  have starts : string.drop ((upToAny schemeEnds part).length + 1) = rest ++ fragment := by
    rw [front, behind, List.drop_left]
  have scheme : String.substring string 0 (upToAny schemeEnds part).length =
      .ok (upToAny schemeEnds part) := by
    rw [String.substring_ok (Nat.zero_le _) (by omega), List.drop_zero, Nat.sub_zero, front,
      List.append_assoc, List.take_left]
  have specific : String.substring string ((upToAny schemeEnds part).length + 1) part.length =
      .ok rest := by
    rw [String.substring_ok (by omega) inside, starts, total, Nat.add_sub_add_left,
      Nat.add_sub_cancel, List.take_left]
  have slash_iff : String.regionMatches string ((upToAny schemeEnds part).length + 1) [slash] 0 1 =
      true ↔ [slash] <+: rest ++ fragment := by
    rw [← starts]
    exact regionMatches_iff string [slash] (by omega) (by simp [slash])
  rw [parseScheme, isString, colonIndex_eq split, separatorIndex_eq split nonempty, parted]
  simp only [bind, Except.bind]
  rw [if_pos ordered, upTo, if_pos rfl, List.length_nil, Nat.add_zero, scheme]
  simp only []
  cases rest with
  | nil =>
      rw [if_pos rfl]
      exact if_pos total.symm
  | cons c rest =>
      rw [if_neg (by rw [total, List.length_cons]; omega), if_neg (List.cons_ne_nil _ _)]
      by_cases isSlash : c = slash
      · subst isSlash
        rw [if_pos (slash_iff.mpr ⟨rest ++ fragment, rfl⟩), behind]
        exact (if_pos rfl).symm
      · rw [if_neg, if_neg]
        · rw [specific]
          rfl
        · intro same
          cases same
          exact isSlash rfl
        · intro matched
          rcases slash_iff.mp matched with ⟨behind, same⟩
          cases same
          exact isSlash rfl

end Scheme

/-- The parser cuts the fragment off. -/
theorem parseURI_begins (string : List UInt8) (server : Bool) :
    parseURI string server =
      parseScheme { mString := string, mFragment := fragmentOf string } (body string).length
        server := by
  have fragmentStart : indexOf string numberSign 0 string.length = (body string).length := by
    rw [indexOf_eq (by decide) (Nat.le_refl _), List.take_length, body]
  have joined : body string ++ (fragmentOf string).elim [] (numberSign :: ·) = string :=
    upTo_after numberSign string
  rw [parseURI, fragmentStart]
  cases found : fragmentOf string with
  | none =>
      rw [found, Option.elim_none, List.append_nil] at joined
      rw [if_neg]
      rw [joined]
      exact Nat.lt_irrefl _
  | some fragment =>
      rw [found, Option.elim_some] at joined
      have size : string.length = (body string).length + (fragment.length + 1) := by
        conv_lhs => rw [← joined, List.length_append, List.length_cons]
      have cutOff : String.substringFrom string ((body string).length + 1) = .ok fragment := by
        have behind : string.drop (body string).length = numberSign :: fragment := by
          conv_lhs => rw [← joined, List.drop_append_of_le_length (le_of_eq (by rw [joined]))]
          rw [joined, List.drop_length, List.nil_append]
        rw [String.substringFrom_ok (by omega), ← List.drop_drop, behind]
        rfl
      rw [if_pos (by omega), cutOff]
      rfl

theorem body_fragment (string : List UInt8) :
    ∃ fragment, string = body string ++ fragment ∧ Trails fragment ∧
      (body string = string ↔ fragment = []) := by
  rcases body_split string with ⟨fragment, split, trails⟩
  refine ⟨fragment, split, trails, ?_, ?_⟩
  · intro same
    have lengths := congrArg List.length split
    rw [List.length_append, same] at lengths
    exact List.length_eq_zero_iff.mp (Nat.left_eq_add.mp lengths)
  · rintro rfl
    rw [List.append_nil] at split
    exact split.symm

theorem authorityOf_isOpaque {string : List UInt8} (opaquely : isOpaque string = true) :
    authorityOf string = none := by
  have other : ∀ rest, hierPart string ≠ slash :: slash :: rest := by
    intro rest same
    rw [isOpaque, same, List.head?_cons, bne_self_eq_false, Bool.and_false] at opaquely
    cases opaquely
  rw [authorityOf, cutAuthority_other other]

/-- What the parser does with every string but the empty one. -/
theorem parseURI_eq {string : List UInt8} (nonempty : string ≠ []) (server : Bool) :
    parseURI string server =
      if Incomplete string then
        .error (missing string)
      else
        (cut string).parseAuthority server := by
  rcases body_fragment string with ⟨fragment, split, trails, whole⟩
  rw [parseURI_begins]
  rcases cutScheme_cases (body string) with ⟨unschemed, unparted⟩ | ⟨rest, schemed, parted⟩
  · have scheme : schemeOf string = none := congrArg Prod.fst unschemed
    have hier : hierPart string = body string := congrArg Prod.snd unschemed
    have begins := parseHierarchical_eq { mString := string, mFragment := fragmentOf string } []
      (body string) rfl rfl rfl split (List.forall_mem_nil _) trails server
    rw [parseScheme_unparted rfl split nonempty unparted]
    refine begins.trans ?_
    simp only [Incomplete, scheme, hier, whole]
    by_cases ended : body string = [slash, slash] ∧ fragment = []
    · rw [if_pos ended, if_pos (.inr ended), missing, hier, ended.1]
    · have complete : ¬((none : Option (List UInt8)).isSome = true ∧ body string = [] ∨
          body string = [slash, slash] ∧ fragment = []) := by
        rintro (⟨absent, _⟩ | same)
        · cases absent
        · exact ended same
      rw [if_neg ended, if_neg complete, cut, isOpaque, authorityOf, pathOf, queryOf, scheme, hier]
      rfl
  · have scheme : schemeOf string = some (upToAny schemeEnds (body string)) :=
      congrArg Prod.fst schemed
    have hier : hierPart string = rest := congrArg Prod.snd schemed
    have joined : string = upToAny schemeEnds (body string) ++ [colon] ++ rest ++ fragment := by
      conv_lhs => rw [split, ← upToAny_append_fromAny schemeEnds (body string), parted]
      rw [List.append_assoc _ [colon]]
      rfl
    have lacks : Lacks questionMark (upToAny schemeEnds (body string) ++ [colon]) := by
      apply (lacks_of_free (by decide) (free_scheme (body string)).1).append
      intro other member
      rcases List.mem_singleton.mp member with rfl
      decide
    have total : (body string).length =
        (upToAny schemeEnds (body string) ++ [colon] ++ rest).length := by
      conv_lhs => rw [← upToAny_append_fromAny schemeEnds (body string), parted]
      rw [List.append_assoc]
      rfl
    rw [parseScheme_parted rfl split nonempty parted]
    simp only [Incomplete, scheme, hier, whole]
    cases rest with
    | nil => rw [if_pos rfl, if_pos (.inl ⟨rfl, rfl⟩), missing, hier]
    | cons c rest =>
        have continues : ¬((some (upToAny schemeEnds (body string))).isSome = true ∧
            c :: rest = []) := fun same => List.cons_ne_nil c rest same.2
        rw [if_neg (List.cons_ne_nil c rest)]
        by_cases hierarchical : c = slash
        · subst hierarchical
          have begins := parseHierarchical_eq
            { mString := string
              mScheme := some (upToAny schemeEnds (body string))
              mFragment := fragmentOf string }
            (upToAny schemeEnds (body string) ++ [colon]) (slash :: rest) rfl rfl rfl joined lacks
            trails server
          rw [if_pos (List.head?_cons), total]
          refine begins.trans ?_
          by_cases ended : slash :: rest = [slash, slash] ∧ fragment = []
          · rw [if_pos ended, if_pos (.inr ended), missing, hier]
          · rw [if_neg ended, if_neg fun same => same.elim continues ended, cut, isOpaque,
              authorityOf, pathOf, queryOf, scheme, hier]
            rfl
        · have isOther : (c :: rest).head? ≠ some slash := fun same =>
            hierarchical (Option.some.inj same)
          have unslashed : ¬(c :: rest = [slash, slash] ∧ fragment = []) := fun same =>
            hierarchical (List.cons.inj same.1).1
          have opaquely : ((some (upToAny schemeEnds (body string))).isSome &&
              (c :: rest).head? != some slash) = true := bne_iff_ne.mpr isOther
          rw [if_neg isOther, if_neg fun same => same.elim continues unslashed, cut, isOpaque,
            scheme, hier, opaquely]
          rfl

theorem new_nil : new [] = .error .indexOutOfBoundsException := rfl

/-- Which strings the parser accepts, and the parts that it finds. -/
theorem new_cases {string : List UInt8} (nonempty : string ≠ []) :
    (Incomplete string → ∃ message, new string = .error (invalid message)) ∧
      (¬Incomplete string → ∃ uri path, new string = .ok uri ∧
        Parsed uri string (schemeOf string) (authorityOf string) path ∧
          ((authorityOf string).isSome = true → path = some (pathOf string))) := by
  rw [new, parseURI_eq nonempty]
  constructor
  · intro incomplete
    rw [if_pos incomplete, missing]
    cases hierPart string with
    | nil => exact ⟨_, rfl⟩
    | cons c rest => exact ⟨_, rfl⟩
  · intro complete
    rw [if_neg complete]
    rcases parseAuthority_keeps (cut string) with ⟨uri, accepts, same⟩
    have authority : (cut string).mAuthority = authorityOf string := by
      rw [cut]
      dsimp only
      split
      case isTrue isOpaque => exact (authorityOf_isOpaque isOpaque).symm
      case isFalse => rfl
    refine ⟨uri, _, accepts, ⟨same.string, same.scheme, same.authority.trans authority, same.path⟩,
      fun authorized => ?_⟩
    have hierarchical : ¬isOpaque string = true := by
      intro isOpaque
      rw [authorityOf_isOpaque isOpaque] at authorized
      cases authorized
    exact if_neg hierarchical

/-! ## Addresses -/

/-- The parts of a string that was parsed. -/
theorem parsed_of_parseURI {string : List UInt8} {server : Bool} {uri : URI}
    (parsed : parseURI string server = .ok uri) :
    ∃ path, Parsed uri string (schemeOf string) (authorityOf string) path := by
  have nonempty : string ≠ [] := by
    rintro rfl
    cases server <;> cases parsed
  rw [parseURI_eq nonempty] at parsed
  split at parsed
  case isTrue => cases parsed
  case isFalse =>
    have authority : (cut string).mAuthority = authorityOf string := by
      rw [cut]
      dsimp only
      split
      case isTrue isOpaque => exact (authorityOf_isOpaque isOpaque).symm
      case isFalse => rfl
    rcases parseAuthority_settles (cut string) server with ⟨found, accepts, same⟩ | ⟨_, _, refuses⟩
    · rw [accepts] at parsed
      cases parsed
      exact ⟨_, same.string, same.scheme, same.authority.trans authority, same.path⟩
    · rw [refuses] at parsed
      cases parsed

theorem parsed_of_new {string : List UInt8} {uri : URI} (parsed : new string = .ok uri) :
    ∃ path, Parsed uri string (schemeOf string) (authorityOf string) path :=
  parsed_of_parseURI parsed

theorem free_of_schemeOf {string scheme : List UInt8} (found : schemeOf string = some scheme) :
    ∀ c ∈ scheme, isOneOf schemeEnds c = false := by
  rw [schemeOf] at found
  rcases cutScheme_cases (body string) with ⟨cut, _⟩ | ⟨rest, cut, _⟩
  · rw [cut] at found
    cases found
  · rw [cut] at found
    cases found
    exact (free_scheme (body string)).1

/-- A part before the first NUL of a string without its fragment has no number sign. -/
theorem ne_of_front {c : UInt8} {string front : List UInt8} (inside : front <+: upTo c string)
    (nonzero : ∀ other ∈ front, other ≠ 0) : ∀ other ∈ front, other ≠ c := by
  induction string generalizing front with
  | nil =>
      rw [List.prefix_nil.mp inside]
      exact List.forall_mem_nil _
  | cons first string ih =>
      cases front with
      | nil => exact List.forall_mem_nil _
      | cons other front =>
          rw [upTo] at inside
          split at inside
          case isTrue => exact absurd (List.prefix_nil.mp inside) (List.cons_ne_nil _ _)
          case isFalse different =>
            split at inside
            case isTrue isZero =>
              have same := (List.cons_prefix_cons.mp inside).1
              exact absurd (same.trans isZero) (nonzero other List.mem_cons_self)
            case isFalse =>
              rcases List.cons_prefix_cons.mp inside with ⟨rfl, behind⟩
              have later := ih behind fun other member =>
                nonzero other (List.mem_cons_of_mem _ member)
              exact List.forall_mem_cons.mpr ⟨different, later⟩

/-- A string up to its scheme-specific part. -/
theorem hierPart_split (string : List UInt8) :
    ∃ front, (∀ c ∈ front, c ≠ 0) ∧ front ++ hierPart string = body string := by
  rw [hierPart]
  rcases cutScheme_cases (body string) with ⟨cut, _⟩ | ⟨rest, cut, parted⟩
  · rw [cut]
    exact ⟨[], List.forall_mem_nil _, rfl⟩
  · rw [cut]
    refine ⟨upToAny schemeEnds (body string) ++ [colon], ?_, ?_⟩
    · intro c member
      rcases List.mem_append.mp member with inScheme | isColon
      · exact (ne_of_isOneOf ((free_scheme (body string)).1 c inScheme) List.mem_cons_self).2
      · rw [List.mem_singleton.mp isColon]
        decide
    · conv_rhs => rw [← upToAny_append_fromAny schemeEnds (body string), parted]
      rw [List.append_assoc]
      rfl

/-- An authority is not empty, and has none of the characters that end it. -/
theorem free_of_authorityOf {string authority : List UInt8}
    (found : authorityOf string = some authority) :
    authority ≠ [] ∧
      ∀ c ∈ authority, isOneOf [slash, questionMark, numberSign] c = false := by
  rw [authorityOf] at found
  by_cases slashed : ∃ rest, hierPart string = slash :: slash :: rest
  · rcases slashed with ⟨rest, hier⟩
    rw [hier, cutAuthority_slashes] at found
    split at found
    case isTrue => cases found
    case isFalse nonempty =>
      cases found
      refine ⟨nonempty, ?_⟩
      have free : ∀ c ∈ upToAny [slash, questionMark] rest,
          isOneOf [slash, questionMark] c = false := fun c member => isOneOf_of_mem_upToAny member
      rcases hierPart_split string with ⟨front, nonzero, split⟩
      rw [hier] at split
      have inside : (front ++ [slash, slash]) ++ upToAny [slash, questionMark] rest <+:
          upTo numberSign string := by
        rw [← upToAny_append_fromAny [slash, questionMark] rest] at split
        refine ⟨fromAny [slash, questionMark] rest, ?_⟩
        rw [← body, ← split]
        simp only [List.append_assoc, List.cons_append, List.nil_append]
      have noNumberSign := ne_of_front inside fun other member => by
        rcases List.mem_append.mp member with before | inAuthority
        · rcases List.mem_append.mp before with inFront | isSlash
          · exact nonzero other inFront
          · exact String.forall_of_all (p := fun c => c ≠ 0) rfl other isSlash
        · exact (ne_of_isOneOf (free other inAuthority) List.mem_cons_self).2
      intro c member
      have other : c ≠ numberSign := noNumberSign c (List.mem_append_right _ member)
      have ends := free c member
      simp only [isOneOf, List.contains_cons, List.contains_nil, Bool.or_false,
        Bool.or_eq_false_iff, beq_eq_false_iff_ne] at ends ⊢
      exact ⟨⟨ends.1.1, ends.1.2, other⟩, ends.2⟩
  · rw [cutAuthority_other fun rest hier => slashed ⟨rest, hier⟩] at found
    cases found

/-- A scheme and what is behind it are found again. -/
theorem cutScheme_append {scheme : List UInt8} (free : ∀ c ∈ scheme, isOneOf schemeEnds c = false)
    (rest : List UInt8) :
    cutScheme (body (scheme ++ colon :: rest)) = (some scheme, body rest) := by
  have whole : body (scheme ++ colon :: rest) = scheme ++ colon :: body rest := by
    rw [body, upTo_append (lacks_of_free (by decide) free)]
    rfl
  have front : upToAny schemeEnds (scheme ++ colon :: body rest) = scheme := by
    rw [upToAny_append free, upToAny, List.takeWhile_cons_of_neg (by decide), List.append_nil]
  have parted : fromAny schemeEnds (scheme ++ colon :: body rest) = colon :: body rest := by
    have joined := upToAny_append_fromAny schemeEnds (scheme ++ colon :: body rest)
    rw [front] at joined
    exact List.append_cancel_left joined
  rw [whole, cutScheme, parted]
  change (some (upToAny schemeEnds (scheme ++ colon :: body rest)), body rest) =
    (some scheme, body rest)
  rw [front]

theorem schemeOf_append {scheme : List UInt8} (free : ∀ c ∈ scheme, isOneOf schemeEnds c = false)
    (rest : List UInt8) : schemeOf (scheme ++ colon :: rest) = some scheme :=
  congrArg Prod.fst (cutScheme_append free rest)

/-- There is an authority where one starts. -/
theorem authorityOf_append {scheme : List UInt8} {c : UInt8}
    (free : ∀ c ∈ scheme, isOneOf schemeEnds c = false)
    (starts : isOneOf [slash, questionMark, numberSign] c = false) (rest : List UInt8) :
    (authorityOf (scheme ++ colon :: slash :: slash :: c :: rest)).isSome := by
  have other : c ≠ numberSign ∧ c ≠ 0 := ne_of_isOneOf starts (by simp)
  have inside : isOneOf [slash, questionMark] c = false := by
    simp [isOneOf] at starts ⊢
    exact ⟨⟨starts.1.1, starts.1.2.1⟩, starts.2⟩
  have behind : body (slash :: slash :: c :: rest) = slash :: slash :: c :: body rest := by
    have lacks : Lacks numberSign [slash, slash, c] := by
      simp [Lacks, other]
      decide
    exact upTo_append lacks rest
  have hier : hierPart (scheme ++ colon :: slash :: slash :: c :: rest) =
      slash :: slash :: c :: body rest := by
    rw [← behind]
    exact congrArg Prod.snd (cutScheme_append free _)
  rw [authorityOf, hier, cutAuthority_slashes]
  simp [upToAny, inside]

end URI

end Mindroid
