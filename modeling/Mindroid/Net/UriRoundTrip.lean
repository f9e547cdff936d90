import Mindroid.Net.UriConstructors

/-!
# Parsing and composing URIs

What was parsed can be composed again, and what was composed is parsed into the same parts.
-/

set_option autoImplicit false

namespace Mindroid

namespace URI

/-! ## From a string to its parts and back -/

/-- `scheme:schemeSpecificPart#fragment`. -/
def wholeText (uri : URI) : List UInt8 :=
  (uri.mScheme.elim [] fun scheme => scheme ++ [colon]) ++
    (uri.mSchemeSpecificPart.getD [] ++ uri.mFragment.elim [] (numberSign :: ·))

/-- `path?query`. -/
def pathText (uri : URI) : List UInt8 :=
  uri.mPath.getD [] ++ uri.mQuery.elim [] (questionMark :: ·)

/-- The scheme-specific part of a hierarchical URI consists of authority, path and query.  The
authority of a URI that begins with `//` is null if it is empty. -/
def HierarchicalText (uri : URI) : Prop :=
  uri.mSchemeSpecificPart =
      some ((uri.mAuthority.elim [] fun authority => [slash, slash] ++ authority) ++ uri.pathText) ∨
    uri.mAuthority = none ∧ uri.mSchemeSpecificPart = some ([slash, slash] ++ uri.pathText)

theorem cutScheme_joined (part : List UInt8) :
    ((cutScheme part).1.elim [] fun scheme => scheme ++ [colon]) ++ (cutScheme part).2 = part := by
  rcases cutScheme_cases part with ⟨unschemed, _⟩ | ⟨rest, schemed, parted⟩
  · rw [unschemed]
    rfl
  · have joined := upToAny_append_fromAny schemeEnds part
    rw [parted] at joined
    rw [schemed]
    exact (List.append_assoc _ _ _).trans joined

theorem cutAuthority_joined (part : List UInt8) :
    part = ((cutAuthority part).1.elim [] fun authority => [slash, slash] ++ authority) ++
        (cutAuthority part).2 ∨
      (cutAuthority part).1 = none ∧ part = [slash, slash] ++ (cutAuthority part).2 := by
  by_cases slashes : ∃ rest, part = slash :: slash :: rest
  · rcases slashes with ⟨rest, rfl⟩
    have joined := upToAny_append_fromAny [slash, questionMark] rest
    rw [cutAuthority_slashes]
    split
    case isTrue empty =>
      rw [empty, List.nil_append] at joined
      exact .inr ⟨rfl, by rw [joined]; rfl⟩
    case isFalse =>
      left
      rw [Option.elim_some, List.append_assoc, joined]
      rfl
  · rw [cutAuthority_other fun rest same => slashes ⟨rest, same⟩]
    exact .inl rfl

theorem wholeText_cut (string : List UInt8) : (cut string).wholeText = string := by
  have hier := cutScheme_joined (body string)
  have whole : body string ++ (fragmentOf string).elim [] (numberSign :: ·) = string :=
    upTo_after numberSign string
  rw [wholeText, cut, Option.getD_some, ← List.append_assoc]
  change ((schemeOf string).elim [] fun scheme => scheme ++ [colon]) ++ hierPart string ++
    (fragmentOf string).elim [] (numberSign :: ·) = string
  rw [schemeOf, hierPart, hier, whole]

theorem hierarchicalText_cut {string : List UInt8} (hierarchical : isOpaque string = false) :
    (cut string).HierarchicalText := by
  have rest : (cut string).pathText = (cutAuthority (hierPart string)).2 := by
    rw [pathText, cut, hierarchical]
    exact upTo_after questionMark _
  have authority : (cut string).mAuthority = (cutAuthority (hierPart string)).1 := by
    rw [cut, hierarchical]
    rfl
  rw [HierarchicalText, rest, authority]
  cases cutAuthority_joined (hierPart string) with
  | inl joined => exact .inl (congrArg some joined)
  | inr joined => exact .inr ⟨joined.1, congrArg some joined.2⟩

theorem SameParts.wholeText_eq {uri uri' : URI} (same : SameParts uri uri') :
    uri'.wholeText = uri.wholeText := by
  rw [wholeText, wholeText, same.scheme, same.schemeSpecificPart, same.fragment]

theorem SameParts.hierarchicalText {uri uri' : URI} (same : SameParts uri uri')
    (hierarchical : uri.HierarchicalText) : uri'.HierarchicalText := by
  have rest : uri'.pathText = uri.pathText := by rw [pathText, pathText, same.path, same.query]
  rw [HierarchicalText, same.schemeSpecificPart, same.authority, rest]
  exact hierarchical

/-- What the parser accepts, and what it does then. -/
theorem parts_of_parsed {string : List UInt8} {server : Bool} {uri : URI}
    (accepts : parseURI string server = .ok uri) : SameParts (cut string) uri := by
  have nonempty : string ≠ [] := by
    rintro rfl
    cases accepts
  rw [parseURI_eq nonempty] at accepts
  split at accepts
  case isTrue => cases accepts
  case isFalse =>
    rcases parseAuthority_settles (cut string) server with ⟨uri', same, kept⟩ | ⟨_, _, refuses⟩
    · rw [same] at accepts
      cases accepts
      exact kept
    · rw [refuses] at accepts
      cases accepts

/-! ## From the parts of a server to a string and back -/

/-- User info and host can be told apart. -/
structure Served (userInfo : Option (List UInt8)) (host : List UInt8) (port : Int32) : Prop where
  userInfo_free : ∀ text ∈ userInfo, ∀ c ∈ text,
    isOneOf [at_sign, slash, questionMark, numberSign] c = false
  host_free : ∀ c ∈ host,
    isOneOf [at_sign, colon, openBracket, bracket, slash, questionMark, numberSign] c = false
  host_ne_nil : host ≠ []
  port_range : port = -1 ∨ ¬port.toInt < 0

section Server

variable {userInfo : Option (List UInt8)} {host : List UInt8} {port : Int32}

theorem indexOf_none {c : UInt8} {string : List UInt8} (nonzero : c ≠ 0) (lacks : Lacks c string) :
    String.indexOf string c = none := by
  rw [string_indexOf_eq nonzero, (upTo_lacks lacks).1, if_neg (Nat.lt_irrefl _)]

theorem indexOf_some {c : UInt8} {before : List UInt8} (nonzero : c ≠ 0) (lacks : Lacks c before)
    (behind : List UInt8) : String.indexOf (before ++ c :: behind) c = some before.length := by
  rw [string_indexOf_eq nonzero, (upTo_found lacks behind).1, if_pos]
  rw [List.length_append, List.length_cons]
  exact Nat.lt_add_of_pos_right (Nat.succ_pos _)

theorem lastIndexOf_none {c : UInt8} {string : List UInt8} (nonzero : c ≠ 0)
    (lacks : Lacks c string) : String.lastIndexOf string c = none := by
  apply String.lastIndexOf_none nonzero
  rw [cStr_of_lacks lacks]
  exact fun other member => (lacks other member).1

/-- The last of the characters is found. -/
theorem lastIndexOf_some {c : UInt8} {before behind : List UInt8} (nonzero : c ≠ 0)
    (whole : ∀ other ∈ before, other ≠ 0) (lacks : Lacks c behind) :
    String.lastIndexOf (before ++ c :: behind) c = some before.length := by
  have chars : String.cStr (before ++ c :: behind) = before ++ c :: behind := by
    apply String.cStr_of_nonzero
    intro other member
    rcases List.mem_append.mp member with inBefore | member
    · exact whole other inBefore
    · rcases List.mem_cons.mp member with rfl | inBehind
      · exact nonzero
      · exact (lacks other inBehind).2
  exact String.lastIndexOf_some nonzero chars fun other member => (lacks other member).1

/-- The authority that is appended for the parts of a server. -/
def serverAuthority (userInfo : Option (List UInt8)) (host : List UInt8) (port : Int32) :
    List UInt8 :=
  (userInfo.elim [] fun userInfo => userInfo ++ [at_sign]) ++
    (host ++ if port != -1 then colon :: Integer.toString port else [])

theorem Served.host_lacks (served : Served userInfo host port) {c : UInt8}
    (ends : c ∈ [at_sign, colon, openBracket, bracket, slash, questionMark, numberSign]) :
    Lacks c host :=
  lacks_of_free ends served.host_free

theorem Served.userInfo_lacks (served : Served userInfo host port) {c : UInt8}
    (ends : c ∈ [at_sign, slash, questionMark, numberSign]) {text : List UInt8}
    (isUserInfo : text ∈ userInfo) : Lacks c text :=
  lacks_of_free ends (served.userInfo_free text isUserInfo)

/-- A host without colons gets no brackets. -/
theorem Served.hostText_eq (served : Served userInfo host port) : hostText host = host := by
  have lacks : Lacks colon host := served.host_lacks (by decide)
  rw [hostText, indexOf_none (by decide) lacks, cStr_of_lacks lacks]
  rfl

theorem Served.serverText_eq (served : Served userInfo host port) :
    serverText userInfo (some host) port =
      [slash, slash] ++ serverAuthority userInfo host port := by
  rw [serverText, Option.isSome_some, Bool.or_true, Bool.true_or, if_pos rfl, Option.elim_some,
    served.hostText_eq, serverAuthority]
  cases isUserInfo : userInfo with
  | none => rfl
  | some text =>
      rw [Option.elim_some, Option.elim_some,
        cStr_of_lacks (served.userInfo_lacks (c := slash) (by decide) isUserInfo)]

/-- What is printed for a port has digits only. -/
theorem Served.port_isDigit (served : Served userInfo host port) (given : port ≠ -1) {c : UInt8}
    (member : c ∈ Integer.toString port) : ∃ digit, Integer.IsDigit c digit := by
  have nonnegative := served.port_range.resolve_left given
  rw [Integer.toString, if_neg nonnegative] at member
  exact Integer.decimal_isDigit member

/-- A digit is none of the characters that separate the parts of a URI. -/
theorem ne_of_isDigit {c : UInt8} {digit : Nat} (isDigit : Integer.IsDigit c digit) :
    isOneOf [at_sign, colon, bracket, slash, questionMark, numberSign] c = false := by
  have separators : ∀ other ∈ [at_sign, colon, bracket, slash, questionMark, numberSign],
      Integer.isDigit 10 other = false :=
    String.forall_of_all rfl
  rw [isOneOf, Bool.or_eq_false_iff]
  constructor
  · refine Bool.eq_false_iff.mpr fun found => ?_
    have separates := separators c (List.contains_iff_mem.mp found)
    rw [isDigit.isDigit] at separates
    cases separates
  · exact beq_false_of_ne isDigit.nonzero

theorem Served.port_lacks (served : Served userInfo host port) (given : port ≠ -1) {c : UInt8}
    (ends : c ∈ [at_sign, colon, bracket, slash, questionMark, numberSign]) :
    Lacks c (Integer.toString port) := by
  intro other member
  rcases served.port_isDigit given member with ⟨digit, isDigit⟩
  exact ne_of_isOneOf (ne_of_isDigit isDigit) ends

theorem Served.toString_ne_nil (served : Served userInfo host port) (given : port ≠ -1) :
    Integer.toString port ≠ [] := by
  rw [Integer.toString, if_neg (served.port_range.resolve_left given)]
  exact Integer.decimal_ne_nil _

theorem setHost_some (uri : URI) (userInfo : Option (List UInt8)) {host : List UInt8}
    (nonempty : host ≠ []) (port : Int32) (server : Bool) :
    uri.setHost userInfo host port server =
      .ok { uri with mUserInfo := userInfo, mHost := some host, mPort := port } :=
  if_neg nonempty

/-- Host and port are found in what is behind the user info. -/
theorem Served.parseHost_eq (served : Served userInfo host port) (uri : URI) :
    uri.parseHost userInfo (host ++ if port != -1 then colon :: Integer.toString port else [])
        true =
      .ok { uri with mUserInfo := userInfo, mHost := some host, mPort := port } := by
  by_cases given : port = -1
  · have lacks : Lacks colon host := served.host_lacks (by decide)
    rw [given, bne_self_eq_false, if_neg Bool.false_ne_true, List.append_nil, parseHost,
      lastIndexOf_none (by decide) lacks]
    exact setHost_some uri userInfo served.host_ne_nil (-1) true
  · have whole : ∀ c ∈ host, c ≠ 0 := fun c member =>
      (served.host_lacks (c := colon) (by decide) c member).2
    have noBracket : Lacks bracket (host ++ colon :: Integer.toString port) := by
      apply (served.host_lacks (by decide)).append
      intro c member
      rcases List.mem_cons.mp member with rfl | inPort
      · decide
      · exact served.port_lacks given (by decide) c inPort
    have size : (host ++ colon :: Integer.toString port).length =
        host.length + ((Integer.toString port).length + 1) := List.length_append
    have positive := List.length_pos_iff.mpr (served.toString_ne_nil given)
    have front : String.substring (host ++ colon :: Integer.toString port) 0 host.length =
        .ok host := by
      rw [String.substring_ok (Nat.zero_le _) (by omega), List.drop_zero, Nat.sub_zero,
        List.take_left]
    have back : String.substringFrom (host ++ colon :: Integer.toString port) (host.length + 1) =
        .ok (Integer.toString port) := by
      rw [String.substringFrom_ok (by omega), ← List.drop_drop, List.drop_left]
      rfl
    have parsed : parsePort (Integer.toString port) true = .ok (some port) := by
      have nonnegative := served.port_range.resolve_left given
      rw [parsePort, Integer.valueOf_toString nonnegative]
      refine if_neg fun negative => nonnegative ?_
      exact Int32.lt_iff_toInt_lt.mp negative
    rw [bne_iff_ne.mpr given, if_pos rfl, parseHost,
      lastIndexOf_some (by decide) whole (served.port_lacks given (by decide)),
      indexOf_none (by decide) noBracket]
    simp only [Option.elim_none, if_true, front, bind, Except.bind]
    rw [if_pos (by omega), back]
    simp only [parsed]
    exact setHost_some uri userInfo served.host_ne_nil port true

/-- User info, host and port are found in an authority. -/
theorem Served.parseAuthority_eq (served : Served userInfo host port) {uri : URI}
    (authority : uri.mAuthority = some (serverAuthority userInfo host port)) :
    uri.parseAuthority true =
      .ok { uri with mUserInfo := userInfo, mHost := some host, mPort := port } := by
  rw [← served.parseHost_eq uri, parseAuthority, authority, serverAuthority]
  cases isUserInfo : userInfo with
  | none =>
      have lacks : Lacks at_sign
          (host ++ if port != -1 then colon :: Integer.toString port else []) := by
        apply (served.host_lacks (by decide)).append
        split
        case isTrue given =>
          intro c member
          rcases List.mem_cons.mp member with rfl | inPort
          · decide
          · exact served.port_lacks (bne_iff_ne.mp given) (by decide) c inPort
        case isFalse => exact fun c member => absurd member List.not_mem_nil
      rw [Option.elim_none, List.nil_append]
      dsimp only
      rw [indexOf_none (by decide) lacks]
  | some text =>
      have lacks : Lacks at_sign text := served.userInfo_lacks (by decide) isUserInfo
      simp only [Option.elim_some, List.append_assoc, List.cons_append, List.nil_append,
        indexOf_some (by decide) lacks]
      rw [String.substring_ok (Nat.zero_le _) (by simp), List.drop_zero, Nat.sub_zero,
        List.take_left, String.substringFrom_ok (by simp), ← List.drop_drop, List.drop_left]
      rfl

/-- The authority of a server can be told apart from the other parts of a URI. -/
theorem Served.authority_free (served : Served userInfo host port) :
    ∀ c ∈ serverAuthority userInfo host port, isOneOf [slash, questionMark, numberSign] c = false := by
  have fewer : ∀ {chars : List UInt8} {c : UInt8}, isOneOf chars c = false →
      (∀ other ∈ [slash, questionMark, numberSign], other ∈ chars) →
        isOneOf [slash, questionMark, numberSign] c = false := by
    intro chars c free inside
    rw [isOneOf, Bool.or_eq_false_iff] at free ⊢
    refine ⟨Bool.eq_false_iff.mpr fun found => ?_, free.2⟩
    rw [List.contains_iff_mem.mpr (inside c (List.contains_iff_mem.mp found))] at free
    cases free.1
  intro c member
  rcases List.mem_append.mp member with inFront | inBack
  · cases isUserInfo : userInfo with
    | none =>
        rw [isUserInfo] at inFront
        exact absurd inFront List.not_mem_nil
    | some text =>
        rw [isUserInfo, Option.elim_some] at inFront
        rcases List.mem_append.mp inFront with inText | isAt
        · exact fewer (served.userInfo_free text isUserInfo c inText) (String.forall_of_all rfl)
        · rw [List.mem_singleton.mp isAt]
          decide
  · rcases List.mem_append.mp inBack with inHost | inPort
    · exact fewer (served.host_free c inHost) (String.forall_of_all rfl)
    · split at inPort
      case isTrue given =>
        rcases List.mem_cons.mp inPort with rfl | isDigit
        · decide
        · rcases served.port_isDigit (bne_iff_ne.mp given) isDigit with ⟨digit, isDigit⟩
          exact fewer (ne_of_isDigit isDigit) (String.forall_of_all rfl)
      case isFalse => exact absurd inPort List.not_mem_nil

theorem Served.authority_ne_nil (served : Served userInfo host port) :
    serverAuthority userInfo host port ≠ [] :=
  List.append_ne_nil_of_right_ne_nil _ (List.append_ne_nil_of_left_ne_nil served.host_ne_nil _)

end Server

/-! ## Both ways -/

section Both

variable {scheme authority path host : List UInt8} {query fragment userInfo : Option (List UInt8)}
  {port : Int32}

/-- The parts beside the authority can be told apart. -/
structure Beside (scheme path : List UInt8) (query : Option (List UInt8)) : Prop where
  scheme_free : ∀ c ∈ scheme, isOneOf schemeEnds c = false
  path_free : ∀ c ∈ path, isOneOf [questionMark, numberSign] c = false
  path_start : path = [] ∨ path.head? = some slash
  query_lacks : ∀ text ∈ query, Lacks numberSign text

theorem Served.separable (served : Served userInfo host port) (beside : Beside scheme path query) :
    Separable scheme (serverAuthority userInfo host port) path query where
  scheme_free := beside.scheme_free
  authority_free := served.authority_free
  authority_ne_nil := served.authority_ne_nil
  path_free := beside.path_free
  path_start := beside.path_start
  query_lacks := beside.query_lacks

/-- The path of a URI with a scheme is not relative. -/
theorem Separable.not_relative (separable : Separable scheme authority path query) :
    ((some scheme).isSome && (some path).any fun path => path.head?.any (· != slash)) = false := by
  rw [Option.any_some, Option.isSome_some, Bool.true_and]
  rcases separable.path_start with empty | starts
  · rw [empty]
    rfl
  · rw [starts]
    rfl

/-- The five parts are found again. -/
theorem ofParts_eq (separable : Separable scheme authority path query)
    (nonzero : ∀ text ∈ fragment, ∀ c ∈ text, c ≠ 0) :
    ∃ uri, ofParts (some scheme) (some authority) (some path) query fragment = .ok uri ∧
      uri.mScheme = some scheme ∧ uri.mAuthority = some authority ∧ uri.mPath = some path ∧
        uri.mQuery = query ∧ uri.mFragment = fragment := by
  have joined := joined_text separable nonzero
  rw [ofParts, separable.not_relative, if_neg Bool.false_ne_true,
    parseURI_eq (text_ne_nil separable fragment), if_neg joined.complete]
  rcases parseAuthority_keeps (cut (text (some scheme) (some authority) (some path) query fragment))
    with ⟨uri, accepts, same⟩
  rw [joined.cut_eq] at same
  exact ⟨uri, accepts, same.scheme, same.authority, same.path, same.query, same.fragment⟩

/-- The seven parts are found again. -/
theorem ofServerParts_eq (served : Served userInfo host port) (beside : Beside scheme path query)
    (nonzero : ∀ text ∈ fragment, ∀ c ∈ text, c ≠ 0) :
    ∃ uri, ofServerParts (some scheme) userInfo (some host) port (some path) query fragment =
        .ok uri ∧
      uri.mScheme = some scheme ∧ uri.mUserInfo = userInfo ∧ uri.mHost = some host ∧
        uri.mPort = port ∧ uri.mPath = some path ∧ uri.mQuery = query ∧
          uri.mFragment = fragment := by
  have separable := served.separable beside
  have joined := joined_text separable nonzero
  have whole : String.cStr (serverAuthority userInfo host port) =
      serverAuthority userInfo host port :=
    cStr_of_lacks (lacks_of_free (c := slash) (by decide) separable.authority_free)
  have composed : (((some scheme).elim [] fun scheme => String.cStr scheme ++ [colon]) ++
      (serverText userInfo (some host) port ++ (partText [] (some path) ++
        (partText [questionMark] query ++ partText [numberSign] fragment)))) =
      text (some scheme) (some (serverAuthority userInfo host port)) (some path) query
        fragment := by
    rw [text, served.serverText_eq]
    congr 2
    exact congrArg ([slash, slash] ++ ·) whole.symm
  rw [ofServerParts, composed, separable.not_relative]
  simp only [Option.isNone_some, Bool.false_and, Bool.and_false, Bool.false_eq_true, if_false]
  rw [parseURI_eq (text_ne_nil separable fragment), if_neg joined.complete, joined.cut_eq,
    served.parseAuthority_eq rfl]
  exact ⟨_, rfl, rfl, rfl, rfl, rfl, rfl, rfl, rfl⟩

/-- What the parser accepts can be composed of its parts, and parts that can be told apart are the
parts of what is composed of them. -/
theorem parse_compose_inverse :
    (∀ string server uri, parseURI string server = .ok uri →
      uri.wholeText = string ∧ (uri.mOpaque = false → uri.HierarchicalText)) ∧
    (∀ scheme authority path query fragment, scheme ≠ [] →
      Separable scheme authority path query → (∀ text ∈ fragment, ∀ c ∈ text, c ≠ 0) →
        ∃ uri, ofParts (some scheme) (some authority) (some path) query fragment = .ok uri ∧
          uri.mScheme = some scheme ∧ uri.mAuthority = some authority ∧ uri.mPath = some path ∧
            uri.mQuery = query ∧ uri.mFragment = fragment) ∧
    ∀ scheme userInfo host port path query fragment, scheme ≠ [] →
      Served userInfo host port → Beside scheme path query →
        (∀ text ∈ fragment, ∀ c ∈ text, c ≠ 0) →
        ∃ uri, ofServerParts (some scheme) userInfo (some host) port (some path) query fragment =
            .ok uri ∧
          uri.mScheme = some scheme ∧ uri.mUserInfo = userInfo ∧ uri.mHost = some host ∧
            uri.mPort = port ∧ uri.mPath = some path ∧ uri.mQuery = query ∧
              uri.mFragment = fragment := by
  refine ⟨?_, ?_, ?_⟩
  · intro string server uri accepts
    have same := parts_of_parsed accepts
    refine ⟨same.wholeText_eq.trans (wholeText_cut string), fun hierarchical => ?_⟩
    have shape : isOpaque string = false := same.isOpaque.symm.trans hierarchical
    exact same.hierarchicalText (hierarchicalText_cut shape)
  · intro scheme authority path query fragment _ separable nonzero
    exact ofParts_eq separable nonzero
  · intro scheme userInfo host port path query fragment _ served beside nonzero
    exact ofServerParts_eq served beside nonzero

/-- `s:a`, and `s`, `u`, `h`, the port 7 and `/p` with the fragment `f`. -/
theorem parse_compose_inverse_instances :
    (∃ uri, parseURI [115, 58, 97] false = .ok uri ∧ uri.wholeText = [115, 58, 97]) ∧
    (∃ uri, ofParts (some [115]) (some [104]) (some [47, 112]) none (some [102]) = .ok uri ∧
      uri.mFragment = some [102]) ∧
    ∃ uri, ofServerParts (some [115]) (some [117]) (some [104]) 7 (some [47, 112]) none
        (some [102]) = .ok uri ∧
      uri.mHost = some [104] := by
  have nonzero : ∀ text ∈ some ([102] : List UInt8), ∀ c ∈ text, c ≠ 0 := by
    rintro text ⟨⟩
    exact String.forall_of_all rfl
  have noQuery : ∀ text ∈ (none : Option (List UInt8)), Lacks numberSign text :=
    fun text isText => by cases isText
  have separable : Separable [115] [104] [47, 112] none :=
    ⟨String.forall_of_all rfl, String.forall_of_all rfl, by decide, String.forall_of_all rfl,
      .inr rfl, noQuery⟩
  have userInfo : ∀ text ∈ some ([117] : List UInt8), ∀ c ∈ text,
      isOneOf [at_sign, slash, questionMark, numberSign] c = false := by
    rintro text ⟨⟩
    exact String.forall_of_all rfl
  have served : Served (some [117]) [104] 7 :=
    ⟨userInfo, String.forall_of_all rfl, by decide, .inr (by decide)⟩
  have beside : Beside [115] [47, 112] none :=
    ⟨String.forall_of_all rfl, String.forall_of_all rfl, .inr rfl, noQuery⟩
  refine ⟨?_, ?_, ?_⟩
  · have accepts : ∃ uri, parseURI [115, 58, 97] false = .ok uri := ⟨_, rfl⟩
    rcases accepts with ⟨uri, parsed⟩
    exact ⟨uri, parsed, (parse_compose_inverse.1 _ _ _ parsed).1⟩
  · rcases parse_compose_inverse.2.1 [115] [104] [47, 112] none (some [102]) (by decide) separable
      nonzero with ⟨uri, composed, _, _, _, _, fragment⟩
    exact ⟨uri, composed, fragment⟩
  · rcases parse_compose_inverse.2.2 [115] (some [117]) [104] 7 [47, 112] none (some [102])
      (by decide) served beside nonzero with ⟨uri, composed, _, _, host, _⟩
    exact ⟨uri, composed, host⟩

end Both

end URI

end Mindroid
