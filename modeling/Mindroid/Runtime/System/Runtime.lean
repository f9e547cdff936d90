import Mathlib.Logic.Function.Basic
import Mindroid.Net.URI

/-!
# The runtime

A `Runtime` finds the binder that a URI `scheme://node.id/if=interface` names: a binder of
its own node by the address, or a proxy of a binder of another node.  What binders and plugins
do in their virtual functions is given by parameters.
-/

set_option autoImplicit false

namespace Mindroid

/-- `Binder::Proxy`. -/
structure Proxy where
  mId : UInt64
  mDescriptor : List UInt8
  mUri : URI
  mProxyId : UInt64

/-- How a call of `transact` ends: it returns a promise or null, or throws a
`RemoteException`. -/
inductive Transacted where
  | promise
  | null
  | remoteException
  deriving DecidableEq

/-- The virtual functions of a plugin that a lookup or a transaction calls. -/
structure Runtime.Plugin (β : Type) where
  getStub : β → Option β
  transact : Proxy → Int32 → List UInt8 → Transacted

/-- An entry of `mBinderUris` is a weak pointer, `alive` says whether there still is the
binder. -/
structure Runtime (β : Type) where
  mNodeId : UInt32
  mBinderUris : List UInt8 → Option (Option β)
  mPlugins : List UInt8 → Option (Runtime.Plugin β)
  mProxyIdGenerator : Int32
  alive : β → Bool
  transact : β → Int32 → List UInt8 → Transacted

inductive IBinder (β : Type) where
  | binder (binder : β)
  | proxy (proxy : Proxy)

namespace Runtime

variable {β : Type}

def MINDROID_SCHEME : List UInt8 := String.valueOf "mindroid"

def MINDROID_SCHEME_WITH_SEPARATOR : List UInt8 := String.valueOf "mindroid://"

def invalidUri (uri : URI) : Failure :=
  .illegalArgumentException (String.valueOf "Invalid URI: " ++ String.cStr uri.mString)

/-- A number in a URI. -/
def numberIn (uri : URI) (string : List UInt8) : Except Failure Int32 :=
  match Integer.valueOf string 10 with
  | .error (.numberFormatException _) => .error (invalidUri uri)
  | result => result

/-- `uri->getAuthority()->split(".")`. -/
def partsOf (uri : URI) : Except Failure (List (List UInt8)) :=
  match uri.mAuthority with
  | none => .error .nullPointer
  | some authority => String.split authority (String.valueOf ".")

/-- `%s://%s` of the scheme and the authority. -/
def address (uri : URI) : Except Failure (List UInt8) :=
  match uri.mScheme, uri.mAuthority with
  | some scheme, some authority =>
      .ok (String.cStr scheme ++ String.valueOf "://" ++ String.cStr authority)
  | _, _ => .error .nullPointer

end Runtime

namespace Proxy

/-- The value of the first pair whose key is `if`. -/
def interfaceOf : List (List UInt8) → Except Failure (Option (List UInt8))
  | [] => .ok none
  | pair :: pairs =>
      match String.indexOfString pair (String.valueOf "=") with
      | none => interfaceOf pairs
      | some j => do
          let key ← String.substring pair 0 j
          let value ← String.substringFrom pair (j + 1)
          if String.equals (String.trim key) (String.valueOf "if") then
            pure (some (String.trim value))
          else
            interfaceOf pairs

/-- The interface that a path declares. -/
def interfaceIn (path : List UInt8) : Except Failure (Option (List UInt8)) :=
  if path = [] then
    .ok none
  else do
    let pairs ← String.split (← String.substringFrom path 1) (String.valueOf ",")
    interfaceOf pairs

/-- The text of `mDescriptor`. -/
def descriptorText (uri : URI) (value : List UInt8) : Except Failure (List UInt8) :=
  match uri.mScheme with
  | none => .error .nullPointer
  | some scheme =>
      let descriptor :=
        String.cStr scheme ++ String.valueOf "://interfaces/" ++ String.cStr value
      match uri.mQuery with
      | none => .ok descriptor
      | some query => .ok (descriptor ++ String.valueOf "?" ++ String.cStr query)

/-- `mDescriptor`, which must not stay null. -/
def descriptorOf (uri : URI) : Except Failure (List UInt8) := do
  match ← (match uri.mPath with
    | none => .ok none
    | some path => interfaceIn path) with
  | none => .error (Runtime.invalidUri uri)
  | some value => descriptorText uri value

/-- `mId` of the node and the id. -/
def idOf (node id : Int32) : UInt64 :=
  node.toInt64.toUInt64 <<< 32 ||| (id.toInt64.toUInt64 &&& 0xFFFFFFFF)

/-- The constructor, for a proxy that has no `mProxyId` yet. -/
def new (uri : URI) : Except Failure Proxy := do
  match ← Runtime.partsOf uri with
  | [node, id] =>
      let node ← Runtime.numberIn uri node
      let id ← Runtime.numberIn uri id
      let descriptor ← descriptorOf uri
      let mUri ← URI.create (← Runtime.address uri)
      pure { mId := idOf node id, mDescriptor := descriptor, mUri := mUri, mProxyId := 0 }
  | _ => .error (Runtime.invalidUri uri)

end Proxy

namespace Runtime

variable {β : Type} (runtime : Runtime β)

/-- `mPlugins->get`, which hashes the key. -/
def plugin (scheme : Option (List UInt8)) : Except Failure (Option (Plugin β)) :=
  match scheme with
  | none => .error .nullPointer
  | some scheme => .ok (runtime.mPlugins scheme)

/-- `Proxy::create`, with what `attachProxy` changes in the runtime. -/
def createProxy (uri : URI) : Except Failure (Proxy × Runtime β) := do
  let proxy ← Proxy.new uri
  let proxyId := runtime.mProxyIdGenerator
  let _plugin ← runtime.plugin proxy.mUri.mScheme
  pure ({ proxy with mProxyId := proxyId.toInt64.toUInt64 },
    { runtime with mProxyIdGenerator := proxyId + 1 })

/-- `mBinderUris->get(key)`, which enters a null pointer for a key that is missing, and
`get()` of the weak pointer. -/
def lookUp (key : List UInt8) : Option β × Runtime β :=
  match runtime.mBinderUris key with
  | some entry => (entry.filter runtime.alive, runtime)
  | none =>
      (none, { runtime with mBinderUris := Function.update runtime.mBinderUris key (some none) })

/-- `mBinderUris->remove(key)`. -/
def removeUri (key : List UInt8) : Runtime β :=
  { runtime with mBinderUris := Function.update runtime.mBinderUris key none }

/-- The stub of a plugin for a binder, which is entered for the key. -/
def stubFor (key scheme : List UInt8) (binder : β) : Option (IBinder β) × Runtime β :=
  match runtime.mPlugins scheme with
  | none => (none, runtime)
  | some plugin =>
      match plugin.getStub binder with
      | none => (none, runtime)
      | some stub =>
          (some (.binder stub),
            { runtime with
              mBinderUris := Function.update runtime.mBinderUris key (some (some stub)) })

/-- The part of `getBinder` for a URI of the own node. -/
def getOwnBinder (uri : URI) : Except Failure (Option (IBinder β) × Runtime β) := do
  let key ← address uri
  match uri.mScheme, uri.mAuthority with
  | some scheme, some authority =>
      match runtime.lookUp key with
      | (some binder, runtime) => pure (some (.binder binder), runtime)
      | (none, runtime) =>
          let runtime := runtime.removeUri key
          if String.equals MINDROID_SCHEME scheme then
            pure (none, runtime)
          else
            match runtime.lookUp (MINDROID_SCHEME_WITH_SEPARATOR ++ String.cStr authority) with
            | (none, runtime) => pure (none, runtime)
            | (some binder, runtime) => pure (runtime.stubFor key scheme binder)
  | _, _ => .error .nullPointer

def getBinder (uri : Option URI) : Except Failure (Option (IBinder β) × Runtime β) :=
  match uri with
  | none => .ok (none, runtime)
  | some uri => do
      match ← partsOf uri with
      | [node, _] =>
          let node ← numberIn uri node
          if runtime.mNodeId = node.toUInt32 then
            runtime.getOwnBinder uri
          else do
            let (proxy, runtime) ← runtime.createProxy uri
            pure (some (.proxy proxy), runtime)
      | _ => .error (invalidUri uri)

/-- `RemoteException("Binder transaction failure")`. -/
def transactionFailure : Failure :=
  .remoteException (String.valueOf "Binder transaction failure")

/-- Whether a call of `transact` has returned a promise. -/
def returned : Transacted → Except Failure Bool
  | .promise => .ok true
  | .null => .ok false
  | .remoteException => .error transactionFailure

/-- `Runtime::transact` of a proxy, for a call that wants an answer. -/
def transactProxy (proxy : Proxy) (what : Int32) (data : List UInt8) : Except Failure Bool := do
  match ← runtime.plugin proxy.mUri.mScheme with
  | none => .error transactionFailure
  | some plugin =>
      if ← returned (plugin.transact proxy what data) then
        pure true
      else
        .error transactionFailure

/-- `binder->transact(what, data, 0)`. -/
def transactWith (binder : IBinder β) (what : Int32) (data : List UInt8) :
    Except Failure Bool :=
  match binder with
  | .binder binder => returned (runtime.transact binder what data)
  | .proxy proxy => runtime.transactProxy proxy what data

end Runtime

end Mindroid
