import Mindroid.Net.UriSyntax

/-!
# URIs from their parts

The constructor of a `URI` that takes its parts joins them to a text and parses the text.  A
text that was joined from parts is split into the same parts again.
-/

set_option autoImplicit false

namespace Mindroid

namespace URI

/-- The text of a part with what stands in front of it, if there is the part. -/
def partText (before : List UInt8) (part : Option (List UInt8)) : List UInt8 :=
  part.elim [] fun part => before ++ String.cStr part

/-- What the constructor appends to its `StringBuilder`. -/
def text (scheme authority path query fragment : Option (List UInt8)) : List UInt8 :=
  (scheme.elim [] fun scheme => String.cStr scheme ++ [colon]) ++
    (partText [slash, slash] authority ++ (partText [] path ++
      (partText [questionMark] query ++ partText [numberSign] fragment)))

/-- `new URI(scheme, authority, path, query, fragment)`. -/
def ofParts (scheme authority path query fragment : Option (List UInt8)) : Except Failure URI :=
  if scheme.isSome && (path.any fun path => path.head?.any (· != slash)) then
    .error (invalid "Relative path")
  else
    parseURI (text scheme authority path query fragment) false

/-- The parts of a URI that is not opaque and has no fragment. -/
structure Composed (uri : URI) (string scheme authority path : List UInt8)
    (query : Option (List UInt8)) : Prop where
  string : uri.mString = string
  scheme : uri.mScheme = some scheme
  authority : uri.mAuthority = some authority
  path : uri.mPath = some path
  query : uri.mQuery = query

/-- Scheme, authority, path and query can be told apart. -/
structure Separable (scheme authority path : List UInt8) (query : Option (List UInt8)) : Prop where
  scheme_free : ∀ c ∈ scheme, isOneOf schemeEnds c = false
  authority_free : ∀ c ∈ authority, isOneOf [slash, questionMark, numberSign] c = false
  authority_ne_nil : authority ≠ []
  path_free : ∀ c ∈ path, isOneOf [questionMark, numberSign] c = false
  path_start : path = [] ∨ path.head? = some slash
  query_lacks : ∀ text ∈ query, Lacks numberSign text

theorem cStr_of_lacks {c : UInt8} {string : List UInt8} (lacks : Lacks c string) :
    String.cStr string = string :=
  String.cStr_of_nonzero fun other member => (lacks other member).2

/-! ## The parts of a text -/

section Text

variable {scheme authority path : List UInt8} {query : Option (List UInt8)}

theorem fromAny_scheme (free : ∀ c ∈ scheme, isOneOf schemeEnds c = false) (rest : List UInt8) :
    upToAny schemeEnds (scheme ++ colon :: rest) = scheme ∧
      fromAny schemeEnds (scheme ++ colon :: rest) = colon :: rest := by
  have front : upToAny schemeEnds (scheme ++ colon :: rest) = scheme := by
    rw [upToAny_append free, upToAny, List.takeWhile_cons_of_neg (by decide), List.append_nil]
  have joined := upToAny_append_fromAny schemeEnds (scheme ++ colon :: rest)
  rw [front] at joined
  exact ⟨front, List.append_cancel_left joined⟩

theorem text_eq (separable : Separable scheme authority path query) :
    text (some scheme) (some authority) (some path) query none =
      scheme ++ colon :: slash :: slash ::
        (authority ++ (path ++ partText [questionMark] query)) := by
  have schemeWhole : String.cStr scheme = scheme :=
    cStr_of_lacks (lacks_of_free (c := colon) (by decide) separable.scheme_free)
  have authorityWhole : String.cStr authority = authority :=
    cStr_of_lacks (lacks_of_free (c := slash) (by decide) separable.authority_free)
  have pathWhole : String.cStr path = path :=
    cStr_of_lacks (lacks_of_free (c := questionMark) (by decide) separable.path_free)
  simp only [text, partText, Option.elim_some, Option.elim_none, schemeWhole, authorityWhole,
    pathWhole, List.append_nil, List.nil_append]
  rw [List.append_assoc scheme]
  rfl

theorem lacks_partText {c : UInt8} (nonzero : c ≠ questionMark)
    (lacks : ∀ text ∈ query, Lacks c text) : Lacks c (partText [questionMark] query) := by
  cases query with
  | none => exact fun _ member => nomatch member
  | some text =>
      intro other member
      rw [partText, Option.elim_some, cStr_of_lacks (lacks text rfl)] at member
      rcases List.mem_cons.mp member with rfl | inText
      · exact ⟨nonzero.symm, by decide⟩
      · exact lacks text rfl other inText

/-- A text without a fragment has no number sign. -/
theorem lacks_text (separable : Separable scheme authority path query) :
    Lacks numberSign (text (some scheme) (some authority) (some path) query none) := by
  rw [text_eq separable]
  apply (lacks_of_free (by decide) separable.scheme_free).append
  intro other member
  rcases List.mem_cons.mp member with rfl | member
  · decide
  rcases List.mem_cons.mp member with rfl | member
  · decide
  rcases List.mem_cons.mp member with rfl | member
  · decide
  rcases List.mem_append.mp member with inAuthority | member
  · exact lacks_of_free (by decide) separable.authority_free other inAuthority
  rcases List.mem_append.mp member with inPath | inQuery
  · exact lacks_of_free (by decide) separable.path_free other inPath
  · exact lacks_partText (by decide) separable.query_lacks other inQuery

/-- A text ends with its fragment. -/
theorem text_fragment (scheme authority path query fragment : Option (List UInt8)) :
    text scheme authority path query fragment =
      text scheme authority path query none ++ partText [numberSign] fragment := by
  simp only [text, partText, Option.elim_none, List.append_nil, List.append_assoc]

/-- The fragment is cut off a text. -/
theorem body_text (separable : Separable scheme authority path query)
    {fragment : Option (List UInt8)} (nonzero : ∀ text ∈ fragment, ∀ c ∈ text, c ≠ 0) :
    body (text (some scheme) (some authority) (some path) query fragment) =
        text (some scheme) (some authority) (some path) query none ∧
      fragmentOf (text (some scheme) (some authority) (some path) query fragment) = fragment := by
  have lacks := lacks_text separable
  rw [text_fragment, body, fragmentOf]
  cases fragment with
  | none =>
      rw [partText, Option.elim_none, List.append_nil]
      exact upTo_lacks lacks
  | some text =>
      rw [partText, Option.elim_some, String.cStr_of_nonzero (nonzero text rfl)]
      exact upTo_found lacks text

/-- Behind the authority comes the path, or the query, or nothing. -/
theorem upToAny_authority (separable : Separable scheme authority path query) :
    upToAny [slash, questionMark] (authority ++ (path ++ partText [questionMark] query)) =
      authority := by
  have free : ∀ c ∈ authority, isOneOf [slash, questionMark] c = false := by
    intro c member
    have all := separable.authority_free c member
    rw [isOneOf, Bool.or_eq_false_iff] at all ⊢
    refine ⟨?_, all.2⟩
    simp only [List.contains_cons, List.contains_nil, Bool.or_false, Bool.or_eq_false_iff] at all ⊢
    exact ⟨all.1.1, all.1.2.1⟩
  have ends : upToAny [slash, questionMark] (path ++ partText [questionMark] query) = [] := by
    rcases path with _ | ⟨c, rest⟩
    · cases query with
      | none => rfl
      | some text => exact List.takeWhile_cons_of_neg (by decide)
    · rcases separable.path_start with empty | starts
      · cases empty
      · cases starts
        exact List.takeWhile_cons_of_neg (by decide)
  rw [upToAny_append free, ends, List.append_nil]

/-- The query is cut off what is behind the authority. -/
theorem query_text (separable : Separable scheme authority path query) :
    upTo questionMark (path ++ partText [questionMark] query) = path ∧
      after questionMark (path ++ partText [questionMark] query) = query := by
  have lacks : Lacks questionMark path := lacks_of_free (by decide) separable.path_free
  cases asked : query with
  | none =>
      rw [partText, Option.elim_none, List.append_nil]
      exact upTo_lacks lacks
  | some text =>
      rw [partText, Option.elim_some, cStr_of_lacks (separable.query_lacks text asked)]
      exact upTo_found lacks text

/-- The parts that are found in a text. -/
structure Joined (string scheme authority path : List UInt8)
    (query fragment : Option (List UInt8)) : Prop where
  scheme : schemeOf string = some scheme
  authority : authorityOf string = some authority
  path : pathOf string = path
  query : queryOf string = query
  fragment : fragmentOf string = fragment
  complete : ¬Incomplete string
  hierarchical : isOpaque string = false

/-- A text that was joined from parts is split into the same parts. -/
theorem joined_text (separable : Separable scheme authority path query)
    {fragment : Option (List UInt8)} (nonzero : ∀ text ∈ fragment, ∀ c ∈ text, c ≠ 0) :
    Joined (text (some scheme) (some authority) (some path) query fragment) scheme authority path
      query fragment := by
  rcases body_text separable nonzero with ⟨whole, fragmented⟩
  rw [text_eq separable] at whole
  generalize text (some scheme) (some authority) (some path) query fragment = string at *
  let behind := authority ++ (path ++ partText [questionMark] query)
  rcases fromAny_scheme separable.scheme_free (slash :: slash :: behind) with
    ⟨schemeFound, parted⟩
  have schemeCut : cutScheme (body string) = (some scheme, slash :: slash :: behind) := by
    rw [whole, cutScheme, parted]
    refine (if_pos rfl).trans ?_
    rw [schemeFound]
  have scheme_eq : schemeOf string = some scheme := congrArg Prod.fst schemeCut
  have hier : hierPart string = slash :: slash :: behind := congrArg Prod.snd schemeCut
  have authorityFound : upToAny [slash, questionMark] behind = authority :=
    upToAny_authority separable
  have rest : fromAny [slash, questionMark] behind = path ++ partText [questionMark] query := by
    have joined := upToAny_append_fromAny [slash, questionMark] behind
    rw [authorityFound] at joined
    exact List.append_cancel_left joined
  have authorityCut : cutAuthority (hierPart string) =
      (some authority, path ++ partText [questionMark] query) := by
    rw [hier, cutAuthority_slashes, authorityFound, rest, if_neg separable.authority_ne_nil]
  rcases query_text separable with ⟨pathFound, queryFound⟩
  have authority_eq : authorityOf string = some authority := congrArg Prod.fst authorityCut
  constructor
  · exact scheme_eq
  · exact authority_eq
  · rw [pathOf, authorityCut]
    exact pathFound
  · rw [queryOf, authorityCut]
    exact queryFound
  · exact fragmented
  · rintro (⟨_, empty⟩ | ⟨slashes, _⟩)
    · rw [hier] at empty
      cases empty
    · rw [authorityOf, slashes] at authority_eq
      cases authority_eq
  · rw [isOpaque, hier, List.head?_cons, bne_self_eq_false, Bool.and_false]

theorem text_ne_nil (separable : Separable scheme authority path query)
    (fragment : Option (List UInt8)) :
    text (some scheme) (some authority) (some path) query fragment ≠ [] := by
  rw [text_fragment, text_eq separable]
  intro empty
  have inner := (List.append_eq_nil_iff.mp empty).1
  exact List.cons_ne_nil _ _ (List.append_eq_nil_iff.mp inner).2

/-- What is cut off a text before its authority is parsed. -/
theorem Joined.cut_eq {string : List UInt8} {fragment : Option (List UInt8)}
    (joined : Joined string scheme authority path query fragment) :
    cut string =
      { mString := string
        mScheme := some scheme
        mSchemeSpecificPart := some (hierPart string)
        mAuthority := some authority
        mPath := some path
        mQuery := query
        mFragment := fragment } := by
  rw [cut, joined.hierarchical, joined.scheme, joined.authority, joined.path, joined.query,
    joined.fragment]
  rfl

/-- The parser finds the parts that a text was joined from. -/
theorem new_text (separable : Separable scheme authority path query) :
    ∃ uri, new (text (some scheme) (some authority) (some path) query none) = .ok uri ∧
      Composed uri (text (some scheme) (some authority) (some path) query none) scheme authority
        path query := by
  have joined : Joined (text (some scheme) (some authority) (some path) query none) scheme
      authority path query none := joined_text separable fun text isText => by cases isText
  rw [new, parseURI_eq (text_ne_nil separable none), if_neg joined.complete]
  rcases parseAuthority_keeps (cut (text (some scheme) (some authority) (some path) query none))
    with ⟨uri, accepts, same⟩
  rw [joined.cut_eq] at same
  exact ⟨uri, accepts, same.string, same.scheme, same.authority, same.path, same.query⟩

end Text

end URI

end Mindroid
