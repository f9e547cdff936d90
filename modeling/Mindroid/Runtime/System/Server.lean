import Mindroid.Net.UriSyntax
import Mindroid.Runtime.System.Message
import Mindroid.Runtime.System.Runtime

/-!
# The server of the runtime plugin

`Server::onTransact` reads a message, finds the binder that its URI names and hands the
transaction over.  A binder that cannot be found is reported to the client.
-/

set_option autoImplicit false

namespace Mindroid

open Foundation

namespace Plugin

/-- What leaves `onTransact` instead of a return. -/
inductive ServerThrown where
  | stream (thrown : StreamThrown)
  | failure (failure : Failure)
  deriving DecidableEq

/-- How a call of `onTransact` returns. -/
inductive Ending (β : Type) where
  /-- The binder has returned a promise, whose continuation will answer, or null. -/
  | handed (binder : IBinder β) (promise : Bool)
  /-- An exception response has been written. -/
  | responded
  /-- The type of the message is none of a transaction. -/
  | ignored

namespace Server

/-- The streams of a connection.  A write to the socket of a broken one throws. -/
structure Connection (σ : Type) where
  input : DataInputStream σ
  output : DataOutputStream
  broken : Bool

/-- `String::valueOf("Binder transaction failure")->getBytes()`. -/
def BINDER_TRANSACTION_FAILURE : List UInt8 :=
  String.valueOf "Binder transaction failure"

/-- `Message::newExceptionMessage` for a message. -/
def exceptionMessage (message : Message) : Message where
  type := Message.MESSAGE_TYPE_EXCEPTION_TRANSACTION
  uri := message.uri
  transactionId := message.transactionId
  what := message.what
  data := BINDER_TRANSACTION_FAILURE
  size := BINDER_TRANSACTION_FAILURE.length

variable {σ β : Type}

/-- Write the exception response. -/
def respond (message : Message) (runtime : Runtime β) (connection : Connection σ) :
    Except ServerThrown (Ending β × Runtime β × Connection σ) :=
  if connection.broken then
    .error (.stream (.ioException "Failed to write to socket"))
  else
    match (exceptionMessage message).write connection.output with
    | .error thrown => .error (.stream thrown)
    | .ok (_, output) => .ok (.responded, runtime, { connection with output := output })

/-- Whether `catch (const IllegalArgumentException&)`, of which a `NumberFormatException` is
a case, or `catch (const RemoteException&)` catches it. -/
def isCaught : Failure → Bool
  | .illegalArgumentException _ | .numberFormatException _ | .remoteException _ => true
  | .indexOutOfBoundsException | .uriSyntaxException _ | .nullPointer | .endless => false

/-- The handlers of the inner `try`. -/
def catchFailure (failure : Failure) (message : Message) (runtime : Runtime β)
    (connection : Connection σ) : Except ServerThrown (Ending β × Runtime β × Connection σ) :=
  if isCaught failure then respond message runtime connection else .error (.failure failure)

/-- `mRuntime->getBinder(URI::create(uri))`. -/
def findBinder (runtime : Runtime β) (uri : List UInt8) :
    Except Failure (Option (IBinder β) × Runtime β) := do
  let uri ← URI.create uri
  runtime.getBinder (some uri)

/-- The inner `try`. -/
def transact (message : Message) (runtime : Runtime β) (connection : Connection σ) :
    Except ServerThrown (Ending β × Runtime β × Connection σ) :=
  match findBinder runtime message.uri with
  | .error failure => catchFailure failure message runtime connection
  | .ok (none, runtime) => respond message runtime connection
  | .ok (some binder, runtime) =>
      match runtime.transactWith binder message.what message.data with
      | .error failure => catchFailure failure message runtime connection
      | .ok promise => .ok (.handed binder promise, runtime, connection)

variable (source : InputStream σ)

def onTransact (runtime : Runtime β) (connection : Connection σ) :
    Except ServerThrown (Ending β × Runtime β × Connection σ) :=
  match Message.newMessage source connection.input with
  | .error thrown => .error (.stream thrown)
  | .ok (message, input) =>
      let connection := { connection with input := input }
      if message.type = Message.MESSAGE_TYPE_TRANSACTION then
        transact message runtime connection
      else
        .ok (.ignored, runtime, connection)

/-! ## The ways to end -/

/-- The ways in which a call for a message may end. -/
inductive Ends (message : Message) (runtime : Runtime β) (connection : Connection σ) :
    Except ServerThrown (Ending β × Runtime β × Connection σ) → Prop where
  | handed {binder : IBinder β} {promise : Bool} {runtime' : Runtime β}
      (addressed : findBinder runtime message.uri = .ok (some binder, runtime')) :
      Ends message runtime connection (.ok (.handed binder promise, runtime', connection))
  | responded {runtime' : Runtime β} {output : DataOutputStream}
      (written : output.mOutputStream.bytes =
        connection.output.mOutputStream.bytes ++ (exceptionMessage message).encoding) :
      Ends message runtime connection
        (.ok (.responded, runtime', { connection with output := output }))
  | ignored (unknown : message.type ≠ Message.MESSAGE_TYPE_TRANSACTION) :
      Ends message runtime connection (.ok (.ignored, runtime, connection))
  | thrown {thrown : StreamThrown} (isIOException : thrown.isIOException = true) :
      Ends message runtime connection (.error (.stream thrown))

/-- A call ends in one of these ways, or there is no message and it throws an
`IOException`. -/
def EndsWell (runtime : Runtime β) (connection : Connection σ) : Prop :=
  (∃ message input, Message.newMessage source connection.input = .ok (message, input) ∧
    Ends message runtime { connection with input := input }
      (onTransact source runtime connection)) ∨
  ∃ thrown, onTransact source runtime connection = .error (.stream thrown) ∧
    thrown.isIOException = true

/-- An authority `node.id` whose node is a number. -/
def Names (authority : List UInt8) (node : Int32) (id : List UInt8) : Prop :=
  ∃ text, String.split authority (String.valueOf ".") = .ok [text, id] ∧
    Integer.valueOf text 10 = .ok node

/-- An id that is a number, and a path with the pair `if=interface`. -/
def NamesInterface (id path : List UInt8) : Prop :=
  (∃ number, Integer.valueOf id 10 = .ok number) ∧
    ∃ value, Proxy.interfaceIn path = .ok (some value)

/-- A URI that is not empty and is either cut off, or has an authority and, where the lookup
needs it, a scheme. -/
def Addressable (nodeId : UInt32) (uri : List UInt8) : Prop :=
  uri ≠ [] ∧ (URI.Incomplete uri ∨
    ∃ authority, URI.authorityOf uri = some authority ∧
      (URI.schemeOf uri = none → ∀ node id, Names authority node id →
        node.toUInt32 ≠ nodeId ∧ ¬NamesInterface id (URI.pathOf uri)))

/-! ## Looking a binder up -/

/-- The handlers of `onTransact` catch what a computation throws. -/
def Settles {α : Type} (result : Except Failure α) : Prop :=
  ∀ failure, result = .error failure → isCaught failure = true

theorem settles_ok {α : Type} (value : α) : Settles (.ok value) :=
  nofun

theorem settles_error {α : Type} {failure : Failure} (caught : isCaught failure = true) :
    Settles (.error failure : Except Failure α) := by
  rintro _ ⟨⟩
  exact caught

theorem settles_error_iff {α : Type} {failure : Failure} :
    Settles (.error failure : Except Failure α) ↔ isCaught failure = true :=
  ⟨fun settles => settles failure rfl, settles_error⟩

theorem not_settles_nullPointer {α : Type} :
    ¬Settles (.error .nullPointer : Except Failure α) :=
  fun settles => Bool.false_ne_true (settles_error_iff.mp settles)

theorem interfaceOf_ok (pairs : List (List UInt8)) :
    ∃ value, Proxy.interfaceOf pairs = .ok value := by
  induction pairs with
  | nil => exact ⟨none, rfl⟩
  | cons pair pairs ih =>
      rw [Proxy.interfaceOf]
      cases found : String.indexOfString pair (String.valueOf "=") with
      | none => exact ih
      | some j =>
          have inside : j + 1 ≤ pair.length := String.indexOfString_inside found
          dsimp only
          rw [String.substring_ok (Nat.zero_le _) (Nat.le_of_succ_le inside),
            String.substringFrom_ok inside]
          simp only [bind, Except.bind]
          split
          · exact ⟨_, rfl⟩
          · exact ih

theorem interfaceIn_ok (path : List UInt8) : ∃ value, Proxy.interfaceIn path = .ok value := by
  rw [Proxy.interfaceIn]
  by_cases empty : path = []
  · exact ⟨none, if_pos empty⟩
  · have comma : String.valueOf "," ≠ [] := by decide
    rcases String.split_returns comma (path.drop 1) with ⟨pairs, pieces⟩
    rw [if_neg empty, String.substringFrom_ok (List.length_pos_iff.mpr empty)]
    simp only [bind, Except.bind, pieces]
    exact interfaceOf_ok pairs

/-- The number of a node or an id, or a text that is none. -/
theorem numberIn_cases (uri : URI) (string : List UInt8) :
    (∃ number, Integer.valueOf string 10 = .ok number ∧
        Runtime.numberIn uri string = .ok number) ∨
      (∀ number, Integer.valueOf string 10 ≠ .ok number) ∧
        Runtime.numberIn uri string = .error (Runtime.invalidUri uri) := by
  rw [Runtime.numberIn]
  rcases Integer.valueOf_cases string 10 with ⟨number, valid⟩ | ⟨message, thrown⟩
  · rw [valid]
    exact .inl ⟨number, rfl, rfl⟩
  · rw [thrown]
    exact .inr ⟨nofun, rfl⟩

section Lookup

variable {uri : URI} {string : List UInt8} {scheme path : Option (List UInt8)}
  {authority : List UInt8}

theorem address_ok {scheme : List UInt8}
    (parsed : URI.Parsed uri string (some scheme) (some authority) path) :
    Runtime.address uri =
      .ok (String.cStr scheme ++ String.valueOf "://" ++ String.cStr authority) := by
  rw [Runtime.address, parsed.scheme, parsed.authority]

theorem create_invalid {message : String}
    (throws : URI.new string = .error (URI.invalid message)) :
    URI.create string = .error (.illegalArgumentException (String.valueOf message)) := by
  rw [URI.create, throws]
  rfl

/-- The address of a URI has its scheme. -/
theorem create_address {scheme : List UInt8}
    (free : ∀ c ∈ scheme, URI.isOneOf URI.schemeEnds c = false) (authority : List UInt8) :
    Settles (URI.create
        (String.cStr scheme ++ String.valueOf "://" ++ String.cStr authority)) ∧
      ∀ mUri, URI.create
          (String.cStr scheme ++ String.valueOf "://" ++ String.cStr authority) = .ok mUri →
        mUri.mScheme = some scheme := by
  have whole : String.cStr scheme = scheme :=
    List.takeWhile_eq_self_iff.mpr fun c member => by
      have lacks := URI.lacks_of_free (c := URI.colon) (by decide) free
      exact bne_iff_ne.mpr (lacks c member).2
  have joined : String.cStr scheme ++ String.valueOf "://" ++ String.cStr authority =
      scheme ++ URI.colon :: ([URI.slash, URI.slash] ++ String.cStr authority) := by
    rw [whole, List.append_assoc]
    rfl
  have nonempty : scheme ++ URI.colon :: ([URI.slash, URI.slash] ++ String.cStr authority) ≠ [] :=
    List.append_ne_nil_of_right_ne_nil _ (List.cons_ne_nil _ _)
  rw [joined]
  rcases URI.new_cases nonempty with ⟨incomplete, complete⟩
  by_cases cutOff :
      URI.Incomplete (scheme ++ URI.colon :: ([URI.slash, URI.slash] ++ String.cStr authority))
  · rcases incomplete cutOff with ⟨message, throws⟩
    rw [create_invalid throws]
    exact ⟨settles_error rfl, fun _ created => nomatch created⟩
  · rcases complete cutOff with ⟨mUri, path, accepts, parsed, _⟩
    rw [URI.create, accepts]
    refine ⟨settles_ok mUri, ?_⟩
    rintro _ ⟨⟩
    rw [parsed.scheme, URI.schemeOf_append free]

theorem Settles.bind {α γ : Type} {result : Except Failure α} {next : α → Except Failure γ}
    (settles : Settles result) (goesOn : ∀ value, result = .ok value → Settles (next value)) :
    Settles (result >>= next) := by
  cases result with
  | ok value => exact goesOn value rfl
  | error failure =>
      rintro _ ⟨⟩
      exact settles failure rfl

theorem descriptorOf_none {path : List UInt8}
    (parsed : URI.Parsed uri string scheme (some authority) (some path))
    (undeclared : Proxy.interfaceIn path = .ok none) :
    Proxy.descriptorOf uri = .error (Runtime.invalidUri uri) := by
  simp only [Proxy.descriptorOf, parsed.path, undeclared]
  rfl

theorem descriptorOf_some {path value : List UInt8}
    (parsed : URI.Parsed uri string scheme (some authority) (some path))
    (declared : Proxy.interfaceIn path = .ok (some value)) :
    Proxy.descriptorOf uri = Proxy.descriptorText uri value := by
  simp only [Proxy.descriptorOf, parsed.path, declared]
  rfl

theorem descriptorText_ok {scheme : List UInt8}
    (parsed : URI.Parsed uri string (some scheme) (some authority) path) (value : List UInt8) :
    ∃ descriptor, Proxy.descriptorText uri value = .ok descriptor := by
  simp only [Proxy.descriptorText, parsed.scheme]
  cases uri.mQuery with
  | none => exact ⟨_, rfl⟩
  | some query => exact ⟨_, rfl⟩

theorem partsOf_eq (parsed : URI.Parsed uri string scheme (some authority) path) :
    Runtime.partsOf uri = String.split authority (String.valueOf ".") := by
  rw [Runtime.partsOf, parsed.authority]

section Proxy

variable {text id path : List UInt8} {node : Int32}

/-- A URI without a scheme does not get past the constructor, and where it names an interface
the null pointer is what stops it. -/
theorem new_schemeless (parsed : URI.Parsed uri string none (some authority) (some path))
    (parts : String.split authority (String.valueOf ".") = .ok [text, id])
    (number : Integer.valueOf text 10 = .ok node) :
    ∃ failure, Proxy.new uri = .error failure ∧
      (isCaught failure = true ↔ ¬NamesInterface id path) := by
  rcases interfaceIn_ok path with ⟨declared, interface⟩
  have nodeNumber : Runtime.numberIn uri text = .ok node := by
    rw [Runtime.numberIn, number]
  rw [Proxy.new, partsOf_eq parsed, parts]
  simp only [bind, Except.bind, nodeNumber]
  rcases numberIn_cases uri id with ⟨idValue, idValid, idNumber⟩ | ⟨noNumber, idThrown⟩
  · rw [idNumber]
    cases declared with
    | none =>
        rw [descriptorOf_none parsed interface]
        refine ⟨_, rfl, iff_of_true rfl ?_⟩
        rintro ⟨_, value, declared⟩
        rw [interface] at declared
        cases declared
    | some value =>
        have null : Proxy.descriptorText uri value = .error .nullPointer := by
          rw [Proxy.descriptorText, parsed.scheme]
        rw [descriptorOf_some parsed interface, null]
        exact ⟨_, rfl, iff_of_false nofun fun other =>
          other ⟨⟨idValue, idValid⟩, value, interface⟩⟩
  · rw [idThrown]
    refine ⟨_, rfl, iff_of_true rfl ?_⟩
    rintro ⟨⟨idValue, idValid⟩, _⟩
    exact noNumber idValue idValid

/-- The descriptor of a URI with a scheme, or the exception of one that names no interface. -/
theorem descriptorOf_cases {scheme : List UInt8} {path : Option (List UInt8)}
    (parsed : URI.Parsed uri string (some scheme) (some authority) path) :
    (∃ descriptor, Proxy.descriptorOf uri = .ok descriptor) ∨
      Proxy.descriptorOf uri = .error (Runtime.invalidUri uri) := by
  cases path with
  | none =>
      right
      rw [Proxy.descriptorOf, parsed.path]
      rfl
  | some path =>
      rcases interfaceIn_ok path with ⟨declared, interface⟩
      cases declared with
      | none => exact .inr (descriptorOf_none parsed interface)
      | some value =>
          left
          rw [descriptorOf_some parsed interface]
          exact descriptorText_ok parsed value

/-- A URI with a scheme gets past the constructor, or an exception is caught; the proxy
keeps the scheme. -/
theorem new_settles {scheme : List UInt8} {path : Option (List UInt8)}
    (parsed : URI.Parsed uri string (some scheme) (some authority) path)
    (free : ∀ c ∈ scheme, URI.isOneOf URI.schemeEnds c = false) :
    Settles (Proxy.new uri) ∧
      ∀ proxy, Proxy.new uri = .ok proxy → proxy.mUri.mScheme = some scheme := by
  have dot : String.valueOf "." ≠ [] := by decide
  rcases String.split_returns dot authority with ⟨pieces, parts⟩
  rw [Proxy.new, partsOf_eq parsed, parts]
  simp only [bind, Except.bind]
  split
  case h_1 node id =>
    rcases numberIn_cases uri node with ⟨nodeValue, _, nodeNumber⟩ | ⟨_, nodeThrown⟩
    · rcases numberIn_cases uri id with ⟨idValue, _, idNumber⟩ | ⟨_, idThrown⟩
      · rw [nodeNumber, idNumber]
        rcases descriptorOf_cases parsed with ⟨descriptor, described⟩ | undescribed
        · rcases create_address free authority with ⟨settles, keeps⟩
          rw [described, address_ok parsed]
          dsimp only
          cases created : URI.create
              (String.cStr scheme ++ String.valueOf "://" ++ String.cStr authority) with
          | error failure =>
              exact ⟨settles_error (settles failure created), fun _ created => by cases created⟩
          | ok mUri =>
              refine ⟨settles_ok _, ?_⟩
              rintro _ ⟨⟩
              exact keeps mUri created
        · rw [undescribed]
          exact ⟨settles_error rfl, fun _ created => by cases created⟩
      · rw [nodeNumber, idThrown]
        exact ⟨settles_error rfl, fun _ created => by cases created⟩
    · rw [nodeThrown]
      exact ⟨settles_error rfl, fun _ created => by cases created⟩
  case h_2 => exact ⟨settles_error rfl, fun _ created => by cases created⟩

end Proxy

/-! ### The runtime -/

section Runtime

variable (runtime : Runtime β) {text id path : List UInt8} {node : Int32}

theorem plugin_ok {mScheme : Option (List UInt8)} {scheme : List UInt8}
    (schemed : mScheme = some scheme) :
    runtime.plugin mScheme = .ok (runtime.mPlugins scheme) := by
  rw [schemed, Runtime.plugin]

theorem createProxy_settles {scheme : List UInt8} {path : Option (List UInt8)}
    (parsed : URI.Parsed uri string (some scheme) (some authority) path)
    (free : ∀ c ∈ scheme, URI.isOneOf URI.schemeEnds c = false) :
    Settles (runtime.createProxy uri) := by
  rcases new_settles parsed free with ⟨settles, keeps⟩
  apply settles.bind
  intro proxy created
  rw [plugin_ok runtime (keeps proxy created)]
  exact settles_ok _

theorem createProxy_settles_iff
    (parsed : URI.Parsed uri string none (some authority) (some path))
    (parts : String.split authority (String.valueOf ".") = .ok [text, id])
    (number : Integer.valueOf text 10 = .ok node) :
    Settles (runtime.createProxy uri) ↔ ¬NamesInterface id path := by
  rcases new_schemeless parsed parts number with ⟨failure, thrown, caught⟩
  rw [← caught, Runtime.createProxy, thrown]
  exact settles_error_iff

theorem getOwnBinder_settles_iff
    (parsed : URI.Parsed uri string scheme (some authority) (some path)) :
    Settles (runtime.getOwnBinder uri) ↔ scheme ≠ none := by
  cases scheme with
  | none =>
      rw [Runtime.getOwnBinder, Runtime.address, parsed.scheme]
      exact iff_of_false not_settles_nullPointer fun other => other rfl
  | some scheme =>
      refine iff_of_true ?_ nofun
      rw [Runtime.getOwnBinder, address_ok parsed]
      simp only [bind, Except.bind, parsed.scheme, parsed.authority]
      split
      · exact settles_ok _
      · split
        · exact settles_ok _
        · split
          · exact settles_ok _
          · exact settles_ok _

theorem names_iff {pieces : List (List UInt8)}
    (parts : String.split authority (String.valueOf ".") = .ok pieces) :
    Names authority node id ↔
      ∃ text, pieces = [text, id] ∧ Integer.valueOf text 10 = .ok node := by
  constructor
  · rintro ⟨text, named, number⟩
    rw [parts] at named
    exact ⟨text, Except.ok.inj named, number⟩
  · rintro ⟨text, rfl, number⟩
    exact ⟨text, parts, number⟩

/-- A null pointer is met only if the URI has no scheme and the lookup gets as far as to read
it. -/
theorem getBinder_settles_iff (parsed : URI.Parsed uri string scheme (some authority) (some path))
    (free : ∀ found, scheme = some found → ∀ c ∈ found, URI.isOneOf URI.schemeEnds c = false) :
    Settles (runtime.getBinder (some uri)) ↔
      (scheme = none → ∀ node id, Names authority node id →
        node.toUInt32 ≠ runtime.mNodeId ∧ ¬NamesInterface id path) := by
  have point : String.valueOf "." ≠ [] := by decide
  rcases String.split_returns point authority with ⟨pieces, parts⟩
  rw [Runtime.getBinder, partsOf_eq parsed, parts]
  simp only [bind, Except.bind, names_iff parts]
  split
  case h_1 text id =>
    rcases numberIn_cases uri text with ⟨node, number, nodeNumber⟩ | ⟨noNumber, thrown⟩
    · rw [nodeNumber]
      dsimp only
      by_cases own : runtime.mNodeId = node.toUInt32
      · rw [if_pos own, getOwnBinder_settles_iff runtime parsed]
        constructor
        · intro schemed absent
          exact absurd absent schemed
        · intro away absent
          exact (away absent node id ⟨text, rfl, number⟩).1 own.symm
      · rw [if_neg own]
        have proxied : Settles (runtime.createProxy uri) ↔
            (scheme = none → ¬NamesInterface id path) := by
          cases scheme with
          | none =>
              rw [createProxy_settles_iff runtime parsed parts number]
              exact (imp_iff_right rfl).symm
          | some found =>
              exact iff_of_true (createProxy_settles runtime parsed (free found rfl))
                nofun
        constructor
        · intro settles absent node' id' named
          rcases named with ⟨_, ⟨⟩, number'⟩
          cases number.symm.trans number'
          refine ⟨fun same => own same.symm, proxied.mp ?_ absent⟩
          intro failure thrown
          apply settles failure
          rw [thrown]
        · intro away
          refine Settles.bind (proxied.mpr fun absent => ?_) fun _ _ => settles_ok _
          exact (away absent node id ⟨text, rfl, number⟩).2
    · rw [thrown]
      refine iff_of_true (settles_error rfl) ?_
      rintro _ node' _ ⟨_, ⟨⟩, number⟩
      exact absurd number (noNumber node')
  case h_2 other =>
    refine iff_of_true (settles_error rfl) ?_
    rintro _ _ id' ⟨text, rfl, _⟩
    exact absurd rfl (other text id')

/-- Which lookups the handlers of `onTransact` are made for. -/
theorem findBinder_settles_iff (uri : List UInt8) :
    Settles (findBinder runtime uri) ↔ Addressable runtime.mNodeId uri := by
  rw [findBinder, URI.create, Addressable]
  by_cases empty : uri = []
  · rw [empty, URI.new_nil]
    exact iff_of_false (fun settles => Bool.false_ne_true (settles _ rfl)) fun addressable =>
      addressable.1 rfl
  rcases URI.new_cases empty with ⟨incomplete, complete⟩
  by_cases cutOff : URI.Incomplete uri
  · rcases incomplete cutOff with ⟨message, throws⟩
    rw [throws]
    exact iff_of_true (settles_error rfl) ⟨empty, .inl cutOff⟩
  rcases complete cutOff with ⟨mUri, path, accepts, parsed, hierarchical⟩
  rw [accepts]
  change Settles (runtime.getBinder (some mUri)) ↔ _
  cases found : URI.authorityOf uri with
  | none =>
      have null : runtime.getBinder (some mUri) = .error .nullPointer := by
        rw [Runtime.getBinder, Runtime.partsOf, parsed.authority, found]
        rfl
      rw [null]
      refine iff_of_false not_settles_nullPointer ?_
      rintro ⟨_, cut | ⟨_, ⟨⟩, _⟩⟩
      exact cutOff cut
  | some authority =>
      rw [found] at parsed hierarchical
      rw [hierarchical rfl] at parsed
      rw [getBinder_settles_iff runtime parsed fun _ => URI.free_of_schemeOf]
      constructor
      · intro away
        exact ⟨empty, .inr ⟨authority, rfl, fun absent node id named => away absent node id named⟩⟩
      · rintro ⟨_, cut | ⟨_, ⟨⟩, away⟩⟩
        · exact absurd cut cutOff
        · exact away

/-! ### Transactions -/

theorem createProxy_scheme {uri : URI} {proxy : Proxy} {runtime' : Runtime β}
    (created : runtime.createProxy uri = .ok (proxy, runtime')) :
    ∃ scheme, proxy.mUri.mScheme = some scheme := by
  rw [Runtime.createProxy] at created
  cases made : Proxy.new uri with
  | error failure =>
      rw [made] at created
      cases created
  | ok new =>
      rw [made] at created
      cases schemed : new.mUri.mScheme with
      | none =>
          simp only [bind, Except.bind, schemed, Runtime.plugin] at created
          cases created
      | some scheme =>
          simp only [bind, Except.bind, schemed, Runtime.plugin] at created
          cases created
          exact ⟨scheme, schemed⟩

theorem getOwnBinder_binder {uri : URI} {proxy : Proxy} {runtime' : Runtime β} :
    runtime.getOwnBinder uri ≠ .ok (some (.proxy proxy), runtime') := by
  intro found
  rw [Runtime.getOwnBinder] at found
  cases address : Runtime.address uri with
  | error failure =>
      rw [address] at found
      cases found
  | ok key =>
      simp only [address, bind, Except.bind] at found
      split at found
      · split at found
        · cases found
        · split at found
          · cases found
          · split at found
            · cases found
            · rw [Runtime.stubFor] at found
              split at found
              · cases found
              · split at found
                · cases found
                · cases found
      · cases found

/-- The URI of a proxy that a lookup has made has a scheme. -/
theorem getBinder_scheme {uri : URI} {proxy : Proxy} {runtime' : Runtime β}
    (found : runtime.getBinder (some uri) = .ok (some (.proxy proxy), runtime')) :
    ∃ scheme, proxy.mUri.mScheme = some scheme := by
  rw [Runtime.getBinder] at found
  cases parts : Runtime.partsOf uri with
  | error failure =>
      rw [parts] at found
      cases found
  | ok pieces =>
      simp only [parts, bind, Except.bind] at found
      split at found
      · split at found
        · cases found
        · split at found
          · exact absurd found (getOwnBinder_binder runtime)
          · cases created : runtime.createProxy uri with
            | error failure =>
                rw [created] at found
                cases found
            | ok result =>
                rw [created] at found
                cases found
                exact createProxy_scheme runtime created
      · cases found

theorem returned_settles (transacted : Transacted) : Settles (Runtime.returned transacted) := by
  cases transacted with
  | promise => exact settles_ok _
  | null => exact settles_ok _
  | remoteException => exact settles_error rfl

/-- The handlers catch what a transaction with a binder that has been found throws. -/
theorem transactWith_settles {uri : List UInt8} {binder : IBinder β} {runtime' : Runtime β}
    (found : findBinder runtime uri = .ok (some binder, runtime')) (what : Int32)
    (data : List UInt8) : Settles (runtime'.transactWith binder what data) := by
  cases binder with
  | binder binder => exact returned_settles _
  | proxy proxy =>
      have schemed : ∃ scheme, proxy.mUri.mScheme = some scheme := by
        rw [findBinder] at found
        cases created : URI.create uri with
        | error failure =>
            rw [created] at found
            cases found
        | ok mUri =>
            rw [created] at found
            exact getBinder_scheme runtime found
      rcases schemed with ⟨scheme, schemed⟩
      rw [Runtime.transactWith, Runtime.transactProxy, plugin_ok runtime' schemed]
      simp only [bind, Except.bind]
      split
      · exact settles_error rfl
      · apply (returned_settles _).bind
        intro promise _
        cases promise with
        | true => exact settles_ok _
        | false => exact settles_error rfl

end Runtime

end Lookup

/-! ## All that a client can send -/

/-- A response can be sent unless the URI is empty. -/
theorem exceptionMessage_sendable {message : Message} (nonempty : message.uri ≠ [])
    (bounded : message.uri.length ≤ 65535) : (exceptionMessage message).Sendable where
  type := .inr rfl
  uri_ne_nil := nonempty
  uri_bounded := bounded
  size_bounded := by
    change BINDER_TRANSACTION_FAILURE.length ≤ Message.MAX_MESSAGE_SIZE
    decide
  size_le_data := Nat.le_refl _

theorem respond_ends {message : Message} {runtime runtime' : Runtime β}
    {connection : Connection σ} (nonempty : message.uri ≠ [])
    (bounded : message.uri.length ≤ 65535)
    (valid : DataOutputStream.port.valid connection.output) :
    Ends message runtime connection (respond message runtime' connection) := by
  rw [respond]
  by_cases broken : connection.broken = true
  · rw [if_pos broken]
    exact .thrown rfl
  · rcases (Message.write_encodes (exceptionMessage_sendable nonempty bounded)).writes valid with
      ⟨output, written, _, content⟩
    rw [if_neg broken, written]
    exact .responded content

theorem catchFailure_ends {message : Message} {runtime runtime' : Runtime β}
    {connection : Connection σ} {failure : Failure} (caught : isCaught failure = true)
    (nonempty : message.uri ≠ []) (bounded : message.uri.length ≤ 65535)
    (valid : DataOutputStream.port.valid connection.output) :
    Ends message runtime connection (catchFailure failure message runtime' connection) := by
  rw [catchFailure, if_pos caught]
  exact respond_ends nonempty bounded valid

theorem transact_ends {message : Message} {runtime : Runtime β} {connection : Connection σ}
    (addressable : Addressable runtime.mNodeId message.uri)
    (bounded : message.uri.length ≤ 65535)
    (valid : DataOutputStream.port.valid connection.output) :
    Ends message runtime connection (transact message runtime connection) := by
  have settles := (findBinder_settles_iff runtime message.uri).mpr addressable
  rw [transact]
  cases found : findBinder runtime message.uri with
  | error failure =>
      exact catchFailure_ends (settles failure found) addressable.1 bounded valid
  | ok lookup =>
      rcases lookup with ⟨binder, runtime'⟩
      cases binder with
      | none => exact respond_ends addressable.1 bounded valid
      | some binder =>
          dsimp only
          cases transacted : runtime'.transactWith binder message.what message.data with
          | error failure =>
              have caught := transactWith_settles runtime found _ _ failure transacted
              exact catchFailure_ends caught addressable.1 bounded valid
          | ok promise => exact .handed found

/-- A call that does not find a binder in the way the handlers are made for lets the
exception out or follows the null pointer. -/
theorem transact_escapes {message : Message} {runtime : Runtime β}
    (other : ¬Addressable runtime.mNodeId message.uri) (connection : Connection σ) :
    ∃ failure, transact message runtime connection = .error (.failure failure) := by
  rw [← findBinder_settles_iff, Settles] at other
  push Not at other
  rcases other with ⟨failure, thrown, uncaught⟩
  refine ⟨failure, ?_⟩
  rw [transact, thrown]
  exact if_neg uncaught

/-- For all bytes that a client sends, a call ends in one of these ways exactly if the bytes
are not a transaction, or its URI has the parts that the lookup reads. -/
theorem endsWell_iff {content : σ → List UInt8} (delivers : source.Delivers content)
    (runtime : Runtime β) (connection : Connection σ)
    (validInput : (DataInputStream.port content).valid connection.input)
    (validOutput : DataOutputStream.port.valid connection.output) :
    EndsWell source runtime connection ↔
      ∀ message input, Message.newMessage source connection.input = .ok (message, input) →
        message.type = Message.MESSAGE_TYPE_TRANSACTION →
          Addressable runtime.mNodeId message.uri := by
  rw [EndsWell, onTransact]
  rcases (Message.newMessage_reads source delivers).outcome validInput with
    ⟨message, input, read, _, bounded⟩ | ⟨thrown, fails, isIOException⟩
  · rw [read]
    dsimp only
    by_cases transaction : message.type = Message.MESSAGE_TYPE_TRANSACTION
    · rw [if_pos transaction]
      constructor
      · rintro ends _ _ ⟨⟩ _
        by_contra other
        rcases transact_escapes other { connection with input := input } with
          ⟨failure, escapes⟩
        rw [escapes] at ends
        rcases ends with ⟨_, _, _, ends⟩ | ⟨_, ends, _⟩
        · cases ends
        · cases ends
      · intro addressable
        exact .inl ⟨message, input, rfl,
          transact_ends (addressable message input rfl transaction) bounded validOutput⟩
    · rw [if_neg transaction]
      refine iff_of_true (.inl ⟨message, input, rfl, .ignored transaction⟩) ?_
      rintro _ _ ⟨⟩ transaction'
      exact absurd transaction' transaction
  · rw [fails]
    exact iff_of_true (.inr ⟨thrown, rfl, isIOException⟩) nofun

/-- A connection that has received a transaction for a URI. -/
def received (uri : List UInt8) : Connection (List UInt8) where
  input := DataInputStream.new
    (Message.encoding
      { type := 1, uri := uri, transactionId := 5, what := 7, data := [], size := 0 })
  output := DataOutputStream.new ⟨[], false⟩
  broken := false

/-- A node that no binder has registered at. -/
def emptyNode : Runtime Unit where
  mNodeId := 1
  mBinderUris _ := none
  mPlugins _ := none
  mProxyIdGenerator := 1
  alive _ := true
  transact _ _ _ := .null

/-- A transaction for an address is answered by an exception, where there is no binder. -/
theorem received_mindroid :
    EndsWell (.chunked 3) emptyNode (received (String.valueOf "mindroid://1.2")) := by
  refine (endsWell_iff (.chunked 3) (InputStream.chunked_lawful (by decide)).delivers emptyNode
    (received (String.valueOf "mindroid://1.2")) (DataInputStream.new_valid _)
    (DataOutputStream.new_valid _)).mpr ?_
  rintro message input ⟨⟩ _
  refine ⟨by decide, .inr ⟨String.valueOf "1.2", by decide, fun absent => ?_⟩⟩
  exact absurd absent (by decide)

/-- No handler is made for the null pointer that stands for the authority of a URI that is only a
path. -/
theorem received_abc :
    onTransact (.chunked 3) emptyNode (received (String.valueOf "abc")) =
        .error (.failure .nullPointer) ∧
      ¬EndsWell (.chunked 3) emptyNode (received (String.valueOf "abc")) := by
  have escapes : onTransact (.chunked 3) emptyNode (received (String.valueOf "abc")) =
      .error (.failure .nullPointer) := rfl
  refine ⟨escapes, ?_⟩
  rw [EndsWell, escapes]
  rintro (⟨_, _, _, ends⟩ | ⟨_, ends, _⟩)
  · cases ends
  · cases ends

end Server

end Plugin

end Mindroid
