import Mindroid.Net.UriText

/-!
# The constructors of URIs

A URI is parsed from a string, from five parts or from seven parts, where the authority has to be
that of a server.  What the parser accepts can be put together again from the parts that it finds,
and parts that can be told apart are found again.
-/

set_option autoImplicit false

namespace Mindroid

namespace URI

def openBracket : UInt8 := 91

/-- The host in a text.  An IPv6 address gets brackets. -/
def hostText (host : List UInt8) : List UInt8 :=
  if (String.indexOf host colon).isSome && (String.indexOf host bracket).isNone &&
      (String.indexOf host openBracket).isNone then
    openBracket :: (String.cStr host ++ [bracket])
  else
    String.cStr host

/-- What the constructor with seven parts appends for the authority. -/
def serverText (userInfo host : Option (List UInt8)) (port : Int32) : List UInt8 :=
  (if userInfo.isSome || host.isSome || port != -1 then [slash, slash] else []) ++
    ((userInfo.elim [] fun userInfo => String.cStr userInfo ++ [at_sign]) ++
      (host.elim [] hostText ++ if port != -1 then colon :: Integer.toString port else []))

/-- `new URI(scheme, userInfo, host, port, path, query, fragment)`. -/
def ofServerParts (scheme userInfo host : Option (List UInt8)) (port : Int32)
    (path query fragment : Option (List UInt8)) : Except Failure URI :=
  if scheme.isNone && userInfo.isNone && host.isNone && path.isNone && query.isNone &&
      fragment.isNone then
    -- the string of such a URI is null
    .ok { mString := [], mPath := some [] }
  else if scheme.isSome && (path.any fun path => path.head?.any (· != slash)) then
    .error (invalid "Relative path")
  else
    parseURI ((scheme.elim [] fun scheme => String.cStr scheme ++ [colon]) ++
      (serverText userInfo host port ++ (partText [] path ++
        (partText [questionMark] query ++ partText [numberSign] fragment)))) true

/-! ## What is thrown -/

/-- Nothing but a `URISyntaxException` is thrown. -/
def OnlySyntaxException {α : Type} (result : Except Failure α) : Prop :=
  ∀ failure, result = .error failure → ∃ message, failure = .uriSyntaxException message

/-- Nothing but an `IllegalArgumentException` is thrown. -/
def OnlyIllegalArgumentException {α : Type} (result : Except Failure α) : Prop :=
  ∀ failure, result = .error failure → ∃ message, failure = .illegalArgumentException message

theorem onlySyntaxException_ok {α : Type} (value : α) :
    OnlySyntaxException (.ok value : Except Failure α) := by
  intro failure thrown
  cases thrown

theorem onlySyntaxException_invalid {α : Type} (message : String) :
    OnlySyntaxException (.error (invalid message) : Except Failure α) := by
  intro failure thrown
  cases thrown
  exact ⟨_, rfl⟩

/-- The parser only fails in another way on the empty string. -/
theorem onlySyntaxException_parseURI_iff (string : List UInt8) (server : Bool) :
    OnlySyntaxException (parseURI string server) ↔ string ≠ [] := by
  constructor
  · rintro only rfl
    rcases only .indexOutOfBoundsException rfl with ⟨message, same⟩
    cases same
  · intro nonempty
    rw [parseURI_eq nonempty]
    split
    · rw [missing]
      cases hierPart string with
      | nil => exact onlySyntaxException_invalid _
      | cons c rest => exact onlySyntaxException_invalid _
    · rcases parseAuthority_settles (cut string) server with ⟨uri, accepts, _⟩ | ⟨_, message, refuses⟩
      · rw [accepts]
        exact onlySyntaxException_ok uri
      · rw [refuses]
        exact onlySyntaxException_invalid message

theorem onlyIllegalArgumentException_create_iff (string : List UInt8) :
    OnlyIllegalArgumentException (create string) ↔ string ≠ [] := by
  constructor
  · rintro only rfl
    rcases only .indexOutOfBoundsException rfl with ⟨message, same⟩
    cases same
  · intro nonempty failure thrown
    have only := (onlySyntaxException_parseURI_iff string false).mpr nonempty
    rw [create, new] at thrown
    cases parsed : parseURI string false with
    | ok uri =>
        rw [parsed] at thrown
        cases thrown
    | error reason =>
        rcases only reason parsed with ⟨message, rfl⟩
        rw [parsed] at thrown
        cases thrown
        exact ⟨message, rfl⟩

/-- A part is not there or, for the C library, empty. -/
def Blank (part : Option (List UInt8)) : Prop :=
  ∀ text, part = some text → String.cStr text = []

theorem partText_nil_iff (part : Option (List UInt8)) : partText [] part = [] ↔ Blank part := by
  cases part with
  | none => exact ⟨fun _ text isText => (by cases isText), fun _ => rfl⟩
  | some text =>
      constructor
      · rintro empty other ⟨⟩
        exact empty
      · intro blank
        exact blank text rfl

theorem partText_cons_nil_iff (c : UInt8) (part : Option (List UInt8)) :
    partText [c] part = [] ↔ part = none := by
  cases part with
  | none => exact ⟨fun _ => rfl, fun _ => rfl⟩
  | some text =>
      constructor
      · intro empty
        cases empty
      · intro absent
        cases absent

theorem schemeText_nil_iff (scheme : Option (List UInt8)) :
    (scheme.elim [] fun scheme => String.cStr scheme ++ [colon]) = [] ↔ scheme = none := by
  cases scheme with
  | none => exact ⟨fun _ => rfl, fun _ => rfl⟩
  | some text =>
      constructor
      · intro empty
        exact absurd empty (List.append_ne_nil_of_right_ne_nil _ (List.cons_ne_nil _ _))
      · intro absent
        cases absent

/-- Nothing is appended for five parts. -/
structure Nothing (scheme authority path query fragment : Option (List UInt8)) : Prop where
  scheme : scheme = none
  authority : authority = none
  path : Blank path
  query : query = none
  fragment : fragment = none

theorem text_nil_iff (scheme authority path query fragment : Option (List UInt8)) :
    text scheme authority path query fragment = [] ↔
      Nothing scheme authority path query fragment := by
  have authority_iff : partText [slash, slash] authority = [] ↔ authority = none := by
    cases authority with
    | none => exact ⟨fun _ => rfl, fun _ => rfl⟩
    | some text => exact ⟨fun empty => (by cases empty), fun absent => (by cases absent)⟩
  rw [text, List.append_eq_nil_iff, List.append_eq_nil_iff, List.append_eq_nil_iff,
    List.append_eq_nil_iff, schemeText_nil_iff, authority_iff, partText_nil_iff,
    partText_cons_nil_iff, partText_cons_nil_iff]
  constructor
  · rintro ⟨noScheme, noAuthority, noPath, noQuery, noFragment⟩
    exact ⟨noScheme, noAuthority, noPath, noQuery, noFragment⟩
  · intro nothing
    exact ⟨nothing.scheme, nothing.authority, nothing.path, nothing.query, nothing.fragment⟩

theorem onlySyntaxException_ofParts_iff (scheme authority path query fragment : Option (List UInt8)) :
    OnlySyntaxException (ofParts scheme authority path query fragment) ↔
      ¬Nothing scheme authority path query fragment := by
  rw [ofParts, ← text_nil_iff]
  split
  case isTrue relative =>
    have schemed : scheme ≠ none := by
      rintro rfl
      cases relative
    refine ⟨fun _ empty => schemed ?_, fun _ => onlySyntaxException_invalid _⟩
    exact ((text_nil_iff scheme authority path query fragment).mp empty).scheme
  case isFalse => exact onlySyntaxException_parseURI_iff _ false

theorem serverText_nil_iff (userInfo host : Option (List UInt8)) (port : Int32) :
    serverText userInfo host port = [] ↔ userInfo = none ∧ host = none ∧ port = -1 := by
  rw [serverText, List.append_eq_nil_iff]
  constructor
  · rintro ⟨slashes, _⟩
    split at slashes
    case isTrue => cases slashes
    case isFalse unserved =>
      cases userInfo with
      | some text => exact absurd rfl unserved
      | none =>
          cases host with
          | some text => exact absurd rfl unserved
          | none => exact ⟨rfl, rfl, by simpa using unserved⟩
  · rintro ⟨rfl, rfl, rfl⟩
    exact ⟨rfl, rfl⟩

/-- Nothing is appended for seven parts, which are not all null. -/
structure NothingServed (scheme userInfo host : Option (List UInt8)) (port : Int32)
    (path query fragment : Option (List UInt8)) : Prop where
  scheme : scheme = none
  userInfo : userInfo = none
  host : host = none
  port : port = -1
  path : path ≠ none ∧ Blank path
  query : query = none
  fragment : fragment = none

theorem onlySyntaxException_ofServerParts_iff (scheme userInfo host : Option (List UInt8))
    (port : Int32) (path query fragment : Option (List UInt8)) :
    OnlySyntaxException (ofServerParts scheme userInfo host port path query fragment) ↔
      ¬NothingServed scheme userInfo host port path query fragment := by
  rw [ofServerParts]
  split
  case isTrue allNull =>
    simp only [Bool.and_eq_true, Option.isNone_iff_eq_none] at allNull
    exact ⟨fun _ nothing => nothing.path.1 allNull.1.1.2, fun _ => onlySyntaxException_ok _⟩
  case isFalse given =>
    split
    case isTrue relative =>
      have schemed : scheme ≠ none := by
        rintro rfl
        cases relative
      exact ⟨fun _ nothing => schemed nothing.scheme, fun _ => onlySyntaxException_invalid _⟩
    case isFalse =>
      rw [onlySyntaxException_parseURI_iff, not_iff_not, List.append_eq_nil_iff,
        List.append_eq_nil_iff, List.append_eq_nil_iff, List.append_eq_nil_iff,
        schemeText_nil_iff, serverText_nil_iff, partText_nil_iff, partText_cons_nil_iff,
        partText_cons_nil_iff]
      constructor
      · rintro ⟨rfl, ⟨rfl, rfl, noPort⟩, blank, rfl, rfl⟩
        refine ⟨rfl, rfl, rfl, noPort, ⟨?_, blank⟩, rfl, rfl⟩
        rintro rfl
        exact given rfl
      · intro nothing
        exact ⟨nothing.scheme, ⟨nothing.userInfo, nothing.host, nothing.port⟩, nothing.path.2,
          nothing.query, nothing.fragment⟩

/-- Only the documented exceptions are thrown, unless there is nothing to parse. -/
theorem constructors_throw_iff (string : List UInt8)
    (scheme userInfo host authority path query fragment : Option (List UInt8)) (port : Int32) :
    (OnlySyntaxException (new string) ∧ OnlyIllegalArgumentException (create string) ↔
      string ≠ []) ∧
    (OnlySyntaxException (ofParts scheme authority path query fragment) ↔
      ¬Nothing scheme authority path query fragment) ∧
    (OnlySyntaxException (ofServerParts scheme userInfo host port path query fragment) ↔
      ¬NothingServed scheme userInfo host port path query fragment) := by
  refine ⟨?_, onlySyntaxException_ofParts_iff scheme authority path query fragment,
    onlySyntaxException_ofServerParts_iff scheme userInfo host port path query fragment⟩
  rw [new, onlySyntaxException_parseURI_iff, onlyIllegalArgumentException_create_iff, and_self_iff]

/-- The empty string has an index that is out of bounds. -/
theorem empty_throws :
    new [] = .error .indexOutOfBoundsException ∧ create [] = .error .indexOutOfBoundsException ∧
      ¬OnlySyntaxException (new []) ∧ ¬OnlyIllegalArgumentException (create []) := by
  refine ⟨rfl, rfl, fun only => ?_, fun only => ?_⟩
  · rcases only .indexOutOfBoundsException rfl with ⟨message, same⟩
    cases same
  · rcases only .indexOutOfBoundsException rfl with ⟨message, same⟩
    cases same

end URI

end Mindroid
