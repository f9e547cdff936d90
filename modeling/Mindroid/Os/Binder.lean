import Mindroid.Net.UriText
import Mindroid.Os.Parcel
import Mindroid.Runtime.System.Runtime

/-!
# Binders in parcels

A binder is named by a URI `scheme://node.id`, and by `scheme://node.id/if=interface` where its
interface is needed too.  A parcel carries the latter as a string, of which the other side makes
a proxy.
-/

set_option autoImplicit false

namespace Mindroid

namespace Binder

/-- `(uint32_t) ((mId >> 32) & 0xFFFFFFFFL)`. -/
def nodeOf (mId : UInt64) : UInt32 :=
  ((mId >>> 32) &&& 0xFFFFFFFF).toUInt32

/-- `(uint32_t) (mId & 0xFFFFFFFFL)`. -/
def lowOf (mId : UInt64) : UInt32 :=
  (mId &&& 0xFFFFFFFF).toUInt32

/-- `String::format("%u.%u", nodeId, id)`. -/
def authorityOf (mId : UInt64) : List UInt8 :=
  Integer.decimal (nodeOf mId).toNat ++ String.valueOf "." ++ Integer.decimal (lowOf mId).toNat

/-- The URI of a binder, which was made of a scheme and the id. -/
structure Address (mId : UInt64) where
  scheme : List UInt8
  scheme_free : ∀ c ∈ scheme, URI.isOneOf URI.schemeEnds c = false
  uri : URI
  made : URI.ofParts (some scheme) (some (authorityOf mId)) none none none = .ok uri

end Binder

/-- The fields of a `Binder` that name it.  There is no URI before an interface has been
attached. -/
structure Binder where
  mId : UInt64
  mDescriptor : List UInt8
  mUri : Option (Binder.Address mId)

namespace Binder

/-- A scheme that was parsed has none of the characters that end it. -/
theorem scheme_free_of_new {descriptor scheme : List UInt8} {uri : URI}
    (parsed : URI.new descriptor = .ok uri) (schemed : uri.mScheme = some scheme) :
    ∀ c ∈ scheme, URI.isOneOf URI.schemeEnds c = false := by
  rcases URI.parsed_of_new parsed with ⟨path, parts⟩
  exact URI.free_of_schemeOf (parts.scheme.symm.trans schemed)

/-- The part of `attachInterface` that makes the URI. -/
def addressFor (mId : UInt64) (descriptor : List UInt8) : Except Failure (Address mId) :=
  match parsed : URI.new descriptor with
  | .error failure => .error failure
  | .ok uri =>
      match schemed : uri.mScheme with
      | none => .error (.uriSyntaxException (String.valueOf "Scheme must not be null"))
      | some scheme =>
          match made : URI.ofParts (some scheme) (some (authorityOf mId)) none none none with
          | .error failure => .error failure
          | .ok uri => .ok ⟨scheme, scheme_free_of_new parsed schemed, uri, made⟩

/-- The fields that `attachInterface` sets.  A `URISyntaxException` is logged. -/
def attachInterface (binder : Binder) (descriptor : List UInt8) : Except Failure Binder :=
  match addressFor binder.mId descriptor with
  | .ok address => .ok { binder with mDescriptor := descriptor, mUri := some address }
  | .error (.uriSyntaxException _) => .ok { binder with mDescriptor := descriptor }
  | .error failure => .error failure

end Binder

namespace Parcel

/-- The URI that `putBinder` makes of the binder and its interface. -/
def uriOf (binder : Binder) : Except Failure URI :=
  match binder.mUri with
  | none => .error .nullPointer
  | some address => do
      let descriptor ← URI.new binder.mDescriptor
      match descriptor.mPath with
      | none => .error .nullPointer
      | some path => do
          let interface ← String.substringFrom path 1
          URI.ofParts address.uri.mScheme address.uri.mAuthority
            (some (String.valueOf "/if=" ++ String.cStr interface)) descriptor.mQuery none

/-- A `URISyntaxException` is thrown on as a `RemoteException`. -/
def putBinder (binder : Binder) : Action Unit := fun parcel =>
  match uriOf binder with
  | .error (.uriSyntaxException message) => .error (.failure (.remoteException message))
  | .error failure => .error (.failure failure)
  | .ok uri => putString uri.mString parcel

end Parcel

namespace Binder

def comma : UInt8 := 44

/-- `scheme://interfaces/path[?query]`. -/
def interfaceDescriptor (scheme path : List UInt8) (query : Option (List UInt8)) : List UInt8 :=
  scheme ++ String.valueOf "://interfaces/" ++ path ++
    query.elim [] fun query => URI.questionMark :: query

/-- A path that names an interface, a scheme and maybe a query.  None of them has a NUL in it. -/
structure IsInterface (scheme path : List UInt8) (query : Option (List UInt8)) : Prop where
  scheme_free : ∀ c ∈ scheme, URI.isOneOf URI.schemeEnds c = false
  path_ne_nil : path ≠ []
  path_free : ∀ c ∈ path, URI.isOneOf [comma, URI.questionMark, URI.numberSign] c = false
  path_front : ∀ c ∈ path.head?, String.isspace c = false
  path_back : ∀ c ∈ path.getLast?, String.isspace c = false
  query_lacks : ∀ text ∈ query, URI.Lacks URI.numberSign text

/-! ## The id -/

/-- The bits of the mask of the lower half. -/
theorem getLsbD_mask (i : Nat) : (0xFFFFFFFF#64).getLsbD i = decide (i < 32) := by
  change (BitVec.ofNat 64 (2 ^ 32 - 1)).getLsbD i = _
  rw [BitVec.getLsbD_ofNat, Nat.testBit_two_pow_sub_one]
  by_cases low : i < 32
  · simp [low]
    omega
  · simp [low]

/-- The two numbers in the URI of a binder give its id. -/
theorem idOf_halves (mId : UInt64) :
    Proxy.idOf (nodeOf mId).toInt32 (lowOf mId).toInt32 = mId := by
  have halves : (Proxy.idOf (nodeOf mId).toInt32 (lowOf mId).toInt32).toBitVec =
      ((((mId.toBitVec >>> 32) &&& 0xFFFFFFFF#64).setWidth 32).signExtend 64) <<< 32 |||
        (((mId.toBitVec &&& 0xFFFFFFFF#64).setWidth 32).signExtend 64 &&& 0xFFFFFFFF#64) := rfl
  apply UInt64.toBitVec_inj.mp
  apply BitVec.eq_of_getLsbD_eq
  intro i inside
  rw [halves]
  simp only [BitVec.getLsbD_or, BitVec.getLsbD_shiftLeft, BitVec.getLsbD_signExtend,
    BitVec.getLsbD_setWidth, BitVec.getLsbD_and, BitVec.getLsbD_ushiftRight, getLsbD_mask]
  by_cases low : i < 32
  · simp [low, inside]
  · have below : i - 32 < 32 := by omega
    have back : 32 + (i - 32) = i := Nat.add_sub_cancel' (Nat.le_of_not_lt low)
    simp [low, inside, below, back]
    omega

def dot : UInt8 := 46

theorem decimal_free {n : Nat} {c : UInt8} (member : c ∈ Integer.decimal n) :
    URI.isOneOf [dot, URI.slash, URI.questionMark, URI.numberSign] c = false := by
  have all : ∀ digit < 10, URI.isOneOf [dot, URI.slash, URI.questionMark, URI.numberSign]
      (Integer.digitChar digit) = false := by
    decide
  rcases Integer.mem_decimal member with ⟨digit, bounded, rfl⟩
  exact all digit bounded

theorem authorityOf_ne_nil (mId : UInt64) : authorityOf mId ≠ [] := by
  rw [authorityOf, List.append_assoc]
  exact List.append_ne_nil_of_left_ne_nil (Integer.decimal_ne_nil _) _

theorem authorityOf_free (mId : UInt64) : ∀ c ∈ authorityOf mId,
    URI.isOneOf [URI.slash, URI.questionMark, URI.numberSign] c = false := by
  have fewer : ∀ c, URI.isOneOf [dot, URI.slash, URI.questionMark, URI.numberSign] c = false →
      URI.isOneOf [URI.slash, URI.questionMark, URI.numberSign] c = false := by
    intro c free
    rw [URI.isOneOf, List.contains_cons, Bool.or_assoc, Bool.or_eq_false_iff] at free
    exact free.2
  intro c member
  rcases List.mem_append.mp member with front | back
  · rcases List.mem_append.mp front with inNode | inDot
    · exact fewer c (decimal_free inNode)
    · have isDot : c = dot := List.mem_singleton.mp inDot
      rw [isDot]
      decide
  · exact fewer c (decimal_free back)

theorem split_authorityOf (mId : UInt64) :
    String.split (authorityOf mId) (String.valueOf ".") =
      .ok [Integer.decimal (nodeOf mId).toNat, Integer.decimal (lowOf mId).toNat] := by
  have lacks : ∀ n, ∀ c ∈ Integer.decimal n, c ≠ dot ∧ c ≠ 0 := fun n c member =>
    URI.ne_of_isOneOf (decimal_free member) List.mem_cons_self
  have joined : authorityOf mId =
      Integer.decimal (nodeOf mId).toNat ++ dot :: Integer.decimal (lowOf mId).toNat := by
    rw [authorityOf, List.append_assoc]
    rfl
  rw [joined]
  exact String.split_two (by decide) (lacks _) (Integer.decimal_ne_nil _)
    fun c member => (lacks _ c member).1

theorem numberIn_ok {uri : URI} {string : List UInt8} {value : Int32} :
    Runtime.numberIn uri string = .ok value ↔ Integer.valueOf string 10 = .ok value := by
  rw [Runtime.numberIn]
  split
  case h_1 message thrown =>
    rw [thrown]
    constructor
    · intro same
      cases same
    · intro same
      cases same
  case h_2 => exact Iff.rfl

theorem numberIn_decimal (uri : URI) (value : UInt32) :
    Runtime.numberIn uri (Integer.decimal value.toNat) = .ok value.toInt32 := by
  have bounded : value.toNat < 2 ^ 63 := Nat.lt_of_lt_of_le value.toNat_lt (by decide)
  rw [Runtime.numberIn, Integer.valueOf_decimal bounded, Integer.ofInt_toNat]

/-! ## The texts -/

theorem ofParts_eq {scheme authority path : List UInt8} {query : Option (List UInt8)}
    (absolute : path = [] ∨ path.head? = some URI.slash) :
    URI.ofParts (some scheme) (some authority) (some path) query none =
      URI.new (URI.text (some scheme) (some authority) (some path) query none) := by
  apply if_neg
  rcases absolute with rfl | starts
  · exact Bool.false_ne_true
  · simp [starts]

theorem Address.separable {mId : UInt64} (address : Address mId) :
    URI.Separable address.scheme (authorityOf mId) [] none where
  scheme_free := address.scheme_free
  authority_free := authorityOf_free mId
  authority_ne_nil := authorityOf_ne_nil mId
  path_free := List.forall_mem_nil _
  path_start := .inl rfl
  query_lacks := fun _ none => nomatch none

/-- The text of an address. -/
def addressText (scheme : List UInt8) (mId : UInt64) : List UInt8 :=
  URI.text (some scheme) (some (authorityOf mId)) (some []) none none

/-- The constructor joins a scheme and an authority with a colon and two slashes. -/
theorem text_address (scheme authority : List UInt8) :
    URI.text (some scheme) (some authority) (some []) none none =
      String.cStr scheme ++ String.valueOf "://" ++ String.cStr authority := by
  have empty : String.cStr [] = [] := rfl
  simp only [URI.text, URI.partText, Option.elim_some, Option.elim_none, List.append_nil,
    List.append_assoc, empty]
  rfl

theorem Address.new_eq {mId : UInt64} (address : Address mId) :
    URI.new (addressText address.scheme mId) = .ok address.uri :=
  (ofParts_eq (.inl rfl)).symm.trans address.made

theorem Address.composed {mId : UInt64} (address : Address mId) :
    URI.Composed address.uri (addressText address.scheme mId) address.scheme (authorityOf mId)
      [] none := by
  rcases URI.new_text address.separable with ⟨uri, parsed, composed⟩
  have same := address.new_eq
  rw [addressText] at same
  rw [same] at parsed
  cases parsed
  exact composed

section Interface

variable {scheme path : List UInt8} {query : Option (List UInt8)}

theorem isOneOf_of_comma {chars : List UInt8} {c : UInt8}
    (free : URI.isOneOf (comma :: chars) c = false) : URI.isOneOf chars c = false := by
  rw [URI.isOneOf, List.contains_cons, Bool.or_assoc, Bool.or_eq_false_iff] at free
  exact free.2

theorem IsInterface.separable (interface : IsInterface scheme path query) :
    URI.Separable scheme (String.valueOf "interfaces") (URI.slash :: path) query where
  scheme_free := interface.scheme_free
  authority_free := String.forall_of_all (by decide)
  authority_ne_nil := by decide
  path_free := by
    intro c member
    rcases List.mem_cons.mp member with rfl | inPath
    · decide
    · exact isOneOf_of_comma (interface.path_free c inPath)
  path_start := .inr rfl
  query_lacks := interface.query_lacks

theorem partText_query (lacks : ∀ text ∈ query, URI.Lacks URI.numberSign text) :
    URI.partText [URI.questionMark] query = query.elim [] fun query => URI.questionMark :: query := by
  cases query with
  | none => rfl
  | some text =>
      rw [URI.partText, Option.elim_some, URI.cStr_of_lacks (lacks text rfl)]
      rfl

theorem IsInterface.text_eq (interface : IsInterface scheme path query) :
    URI.text (some scheme) (some (String.valueOf "interfaces")) (some (URI.slash :: path)) query
      none = interfaceDescriptor scheme path query := by
  rw [URI.text_eq interface.separable, partText_query interface.query_lacks, interfaceDescriptor,
    List.append_assoc, List.append_assoc]
  rfl

/-- The path that `putBinder` makes of the path of an interface. -/
def ifPath (path : List UInt8) : List UInt8 :=
  String.valueOf "/if=" ++ path

theorem IsInterface.ifSeparable (interface : IsInterface scheme path query) {mId : UInt64}
    (address : Address mId) :
    URI.Separable address.scheme (authorityOf mId) (ifPath path) query where
  scheme_free := address.scheme_free
  authority_free := authorityOf_free mId
  authority_ne_nil := authorityOf_ne_nil mId
  path_free := by
    intro c member
    rcases List.mem_append.mp member with inFront | inPath
    · have all : ∀ c ∈ String.valueOf "/if=",
          URI.isOneOf [URI.questionMark, URI.numberSign] c = false :=
        String.forall_of_all (by decide)
      exact all c inFront
    · exact isOneOf_of_comma (interface.path_free c inPath)
  path_start := .inr rfl
  query_lacks := interface.query_lacks

theorem IsInterface.path_nonzero (interface : IsInterface scheme path query) :
    ∀ c ∈ path, c ≠ comma ∧ c ≠ 0 := fun c member =>
  URI.ne_of_isOneOf (interface.path_free c member) List.mem_cons_self

theorem IsInterface.uriOf_eq (interface : IsInterface scheme path query) {binder : Binder}
    (described : binder.mDescriptor = interfaceDescriptor scheme path query)
    {address : Address binder.mId} (addressed : binder.mUri = some address) :
    Parcel.uriOf binder =
      URI.new (URI.text (some address.scheme) (some (authorityOf binder.mId)) (some (ifPath path))
        query none) := by
  rcases URI.new_text interface.separable with ⟨descriptor, parsed, composed⟩
  rw [interface.text_eq, ← described] at parsed
  have inner : String.substringFrom (URI.slash :: path) 1 = .ok path :=
    String.substringFrom_ok (Nat.succ_le_succ (Nat.zero_le _))
  have whole : String.cStr path = path :=
    String.cStr_of_nonzero fun c member => (interface.path_nonzero c member).2
  have made : URI.ofParts (some address.scheme) (some (authorityOf binder.mId))
      (some (ifPath path)) query none = _ := ofParts_eq (.inr rfl)
  rw [Parcel.uriOf, addressed]
  dsimp only
  rw [parsed]
  simp only [bind, Except.bind, composed.path, inner, whole, composed.query,
    address.composed.scheme, address.composed.authority]
  exact made

/-! ## The proxy -/

/-- Neither end of the path is trimmed. -/
theorem IsInterface.trim_eq (interface : IsInterface scheme path query) :
    String.trim path = path := by
  have keeps : ∀ string : List UInt8, (∀ c ∈ string.head?, String.isspace c = false) →
      string.dropWhile String.isspace = string := by
    intro string front
    cases string with
    | nil => rfl
    | cons c rest =>
        exact List.dropWhile_cons_of_neg (by rw [front c rfl]; exact Bool.false_ne_true)
  rw [String.trim, keeps path interface.path_front, keeps path.reverse, List.reverse_reverse]
  rw [List.head?_reverse]
  exact interface.path_back

theorem IsInterface.interfaceIn_eq (interface : IsInterface scheme path query) :
    Proxy.interfaceIn (ifPath path) = .ok (some path) := by
  let pair := String.valueOf "if=" ++ path
  have inner : String.substringFrom (ifPath path) 1 = .ok pair :=
    String.substringFrom_ok (Nat.succ_le_succ (Nat.zero_le _))
  have pieces : String.split pair (String.valueOf ",") = .ok [pair] := by
    apply String.split_one (List.append_ne_nil_of_right_ne_nil _ interface.path_ne_nil)
    intro c member
    rcases List.mem_append.mp member with inFront | inPath
    · have all : ∀ c ∈ String.valueOf "if=", c ≠ comma := String.forall_of_all (by decide)
      exact all c inFront
    · exact (interface.path_nonzero c inPath).1
  have whole : String.cStr pair = pair := by
    apply String.cStr_of_nonzero
    intro c member
    rcases List.mem_append.mp member with inFront | inPath
    · have all : ∀ c ∈ String.valueOf "if=", c ≠ 0 := String.forall_of_all (by decide)
      exact all c inFront
    · exact (interface.path_nonzero c inPath).2
  have found : String.indexOfString pair (String.valueOf "=") = some 2 := by
    rw [String.indexOfString, whole]
    rfl
  have key : String.substring pair 0 2 = .ok (String.valueOf "if") :=
    String.substring_ok (Nat.zero_le _) (Nat.succ_le_succ (Nat.succ_le_succ (Nat.zero_le _)))
  have value : String.substringFrom pair (2 + 1) = .ok path :=
    String.substringFrom_ok (Nat.succ_le_succ (Nat.succ_le_succ (Nat.succ_le_succ (Nat.zero_le _))))
  have isKey : String.equals (String.trim (String.valueOf "if")) (String.valueOf "if") = true := by
    decide
  have nonempty : ifPath path ≠ [] := List.append_ne_nil_of_left_ne_nil (by decide) _
  rw [Proxy.interfaceIn, if_neg nonempty]
  simp only [bind, Except.bind, inner, pieces, Proxy.interfaceOf, found, key, value, isKey,
    if_true, interface.trim_eq]
  rfl

theorem IsInterface.descriptorText_eq (interface : IsInterface scheme path query) {uri : URI}
    {string uriScheme authority : List UInt8}
    (composed : URI.Composed uri string uriScheme authority (ifPath path) query)
    (uriScheme_free : ∀ c ∈ uriScheme, URI.isOneOf URI.schemeEnds c = false) :
    Proxy.descriptorText uri path = .ok (interfaceDescriptor uriScheme path query) := by
  have pathWhole : String.cStr path = path :=
    String.cStr_of_nonzero fun c member => (interface.path_nonzero c member).2
  have schemeWhole : String.cStr uriScheme = uriScheme :=
    URI.cStr_of_lacks (URI.lacks_of_free (c := URI.colon) (by decide) uriScheme_free)
  rw [Proxy.descriptorText, composed.scheme]
  dsimp only
  rw [composed.query, pathWhole, schemeWhole]
  cases query with
  | none =>
      rw [interfaceDescriptor, Option.elim_none, List.append_nil]
  | some text =>
      dsimp only
      rw [interfaceDescriptor, Option.elim_some, URI.cStr_of_lacks (interface.query_lacks text rfl),
        List.append_assoc _ (String.valueOf "?")]
      rfl

/-- The URI in the address of a proxy is made like that of the binder. -/
theorem Address.create_eq {mId : UInt64} (address : Address mId) {uri : URI}
    {string path : List UInt8} {query : Option (List UInt8)}
    (composed : URI.Composed uri string address.scheme (authorityOf mId) path query) :
    Runtime.address uri = .ok (addressText address.scheme mId) ∧
      URI.create (addressText address.scheme mId) = .ok address.uri := by
  constructor
  · rw [Runtime.address, composed.scheme, composed.authority, addressText, text_address]
  · rw [URI.create, address.new_eq]

/-- An interface that is attached gives the binder a URI with the scheme of the interface. -/
theorem IsInterface.attachInterface_eq (interface : IsInterface scheme path query)
    (binder : Binder) :
    ∃ address : Address binder.mId, address.scheme = scheme ∧
      attachInterface binder (interfaceDescriptor scheme path query) =
        .ok { binder with
          mDescriptor := interfaceDescriptor scheme path query, mUri := some address } := by
  rcases URI.new_text interface.separable with ⟨descriptor, parsed, composed⟩
  rw [interface.text_eq] at parsed
  have separable : URI.Separable scheme (authorityOf binder.mId) [] none :=
    ⟨interface.scheme_free, authorityOf_free _, authorityOf_ne_nil _, List.forall_mem_nil _,
      .inl rfl, fun _ none => nomatch none⟩
  rcases URI.new_text separable with ⟨uri, accepted, _⟩
  have made : URI.ofParts (some scheme) (some (authorityOf binder.mId)) none none none = .ok uri :=
    (ofParts_eq (.inl rfl)).trans accepted
  have addressed : addressFor binder.mId (interfaceDescriptor scheme path query) =
      .ok ⟨scheme, interface.scheme_free, uri, made⟩ := by
    rw [addressFor]
    split
    · next throws =>
        rw [parsed] at throws
        cases throws
    · next found =>
        rw [parsed] at found
        cases found
        split
        · next absent =>
            rw [composed.scheme] at absent
            cases absent
        · next schemed =>
            rw [composed.scheme] at schemed
            cases schemed
            split
            · next throws =>
                rw [made] at throws
                cases throws
            · next again =>
                rw [made] at again
                cases again
                rfl
  refine ⟨⟨scheme, interface.scheme_free, uri, made⟩, rfl, ?_⟩
  rw [attachInterface, addressed]

/-- The string that `putBinder` writes is a URI, of which a proxy is made that has the same id,
the same interface with the scheme of the binder's URI, and the same URI. -/
theorem proxy_of_putBinder {binder : Binder} {address : Address binder.mId}
    (addressed : binder.mUri = some address)
    (described : binder.mDescriptor = interfaceDescriptor scheme path query)
    (interface : IsInterface scheme path query) :
    ∃ string uri proxy, (∀ parcel, Parcel.putBinder binder parcel =
        Parcel.putString string parcel) ∧
      URI.new string = .ok uri ∧ Proxy.new uri = .ok proxy ∧ proxy.mId = binder.mId ∧
      (∃ uriScheme, address.uri.mScheme = some uriScheme ∧
        proxy.mDescriptor = interfaceDescriptor uriScheme path query) ∧
      proxy.mUri = address.uri := by
  rcases URI.new_text (interface.ifSeparable address) with ⟨uri, parsed, composed⟩
  have made : Parcel.uriOf binder = .ok uri := (interface.uriOf_eq described addressed).trans parsed
  have parts : Runtime.partsOf uri = .ok [Integer.decimal (nodeOf binder.mId).toNat,
      Integer.decimal (lowOf binder.mId).toNat] := by
    rw [Runtime.partsOf, composed.authority]
    exact split_authorityOf binder.mId
  have descriptor : Proxy.descriptorOf uri =
      .ok (interfaceDescriptor address.scheme path query) := by
    rw [Proxy.descriptorOf, composed.path]
    simp only [interface.interfaceIn_eq, bind, Except.bind]
    exact interface.descriptorText_eq composed address.scheme_free
  rcases address.create_eq composed with ⟨text, created⟩
  let proxy : Proxy :=
    { mId := Proxy.idOf (nodeOf binder.mId).toInt32 (lowOf binder.mId).toInt32
      mDescriptor := interfaceDescriptor address.scheme path query
      mUri := address.uri
      mProxyId := 0 }
  refine ⟨uri.mString, uri, proxy, ?_, ?_, ?_, idOf_halves binder.mId,
    ⟨address.scheme, address.composed.scheme, rfl⟩, rfl⟩
  · intro parcel
    rw [Parcel.putBinder, made]
  · rw [composed.string]
    exact parsed
  · rw [Proxy.new, parts]
    simp only [bind, Except.bind, numberIn_decimal, descriptor, text, created]
    rfl

end Interface

/-- There is an address for every id and scheme. -/
theorem exists_address (mId : UInt64) {scheme : List UInt8}
    (free : ∀ c ∈ scheme, URI.isOneOf URI.schemeEnds c = false) :
    ∃ address : Address mId, address.scheme = scheme := by
  have separable : URI.Separable scheme (authorityOf mId) [] none :=
    ⟨free, authorityOf_free mId, authorityOf_ne_nil mId, List.forall_mem_nil _, .inl rfl,
      fun _ none => nomatch none⟩
  rcases URI.new_text separable with ⟨uri, parsed, _⟩
  exact ⟨⟨scheme, free, uri, (ofParts_eq (.inl rfl)).trans parsed⟩, rfl⟩

/-- `mindroid://interfaces/a=b/c?d,e?f`. -/
theorem interface_separators :
    IsInterface (String.valueOf "mindroid") (String.valueOf "a=b/c")
      (some (String.valueOf "d,e?f")) where
  scheme_free := String.forall_of_all (by decide)
  path_ne_nil := by decide
  path_free := String.forall_of_all (by decide)
  path_front := by
    rintro c ⟨⟩
    decide
  path_back := by
    rintro c ⟨⟩
    decide
  query_lacks := by
    rintro text ⟨⟩
    exact String.forall_of_all (by decide)

/-- A binder with the largest id of the largest node, and with a query that has every
separator in it. -/
theorem proxy_of_largest :
    ∃ (address : Address 0xFFFFFFFFFFFFFFFF) (string : List UInt8) (uri : URI) (proxy : Proxy),
      (∀ parcel, Parcel.putBinder
          ⟨0xFFFFFFFFFFFFFFFF, String.valueOf "mindroid://interfaces/a=b/c?d,e?f", some address⟩
          parcel = Parcel.putString string parcel) ∧
      URI.new string = .ok uri ∧ Proxy.new uri = .ok proxy ∧ proxy.mId = 0xFFFFFFFFFFFFFFFF ∧
      (∃ uriScheme, address.uri.mScheme = some uriScheme ∧
        proxy.mDescriptor = interfaceDescriptor uriScheme (String.valueOf "a=b/c")
          (some (String.valueOf "d,e?f"))) ∧
      proxy.mUri = address.uri := by
  rcases exists_address 0xFFFFFFFFFFFFFFFF interface_separators.scheme_free with ⟨address, _⟩
  let binder : Binder :=
    ⟨0xFFFFFFFFFFFFFFFF, String.valueOf "mindroid://interfaces/a=b/c?d,e?f", some address⟩
  have addressed : binder.mUri = some address := rfl
  exact ⟨address, proxy_of_putBinder addressed rfl interface_separators⟩

end Binder

end Mindroid
