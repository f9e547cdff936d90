import Mindroid.Foundation.Directory
import Mindroid.Net.UriConstructors
import Mindroid.Runtime.System.Registry

/-!
# Services

`getService` finds what `addService` has entered under a URI.  For a URI of another scheme it enters
a stub that a plugin makes of the service with the same authority, and where there is no service it
makes a proxy.  Services and stubs are in one table, from which they are removed by their ids.
-/

set_option autoImplicit false

namespace Mindroid

open Foundation

/-- A URI that one of the constructors has made. -/
inductive URI.Made : URI → Prop where
  | new {spec : List UInt8} {uri : URI} (made : URI.new spec = .ok uri) : URI.Made uri
  | ofParts {scheme authority path query fragment : Option (List UInt8)} {uri : URI}
      (made : URI.ofParts scheme authority path query fragment = .ok uri) : URI.Made uri
  | ofServerParts {scheme userInfo host : Option (List UInt8)} {port : Int32}
      {path query fragment : Option (List UInt8)} {uri : URI}
      (made : URI.ofServerParts scheme userInfo host port path query fragment = .ok uri) :
      URI.Made uri

structure MadeURI where
  uri : URI
  made : uri.Made

theorem eq_ok_of_isSome {result : Except Failure URI} (valid : result.toOption.isSome = true) :
    result = .ok (result.toOption.get valid) := by
  cases result with
  | error failure => cases valid
  | ok uri => rfl

/-- `new URI(spec)` of a text that is one. -/
def MadeURI.parse (spec : List UInt8) (valid : (URI.new spec).toOption.isSome = true) :
    MadeURI where
  uri := (URI.new spec).toOption.get valid
  made := .new (eq_ok_of_isSome valid)

/-- What a plugin makes of a binder: a copy, which has the id of the binder. -/
structure Stub where
  object : UInt64 → Binder
  copies : ∀ id, (object id).mId = id

/-- `Configuration::Service`. -/
structure ConfiguredService where
  node : UInt32
  id : Int32
  announcements : List UInt8 → Option (List UInt8)

/-- A registry with the number of objects so far, and with what `getProxy` reads: its cache and, of
the configuration, all the services by name. -/
structure Names extends Registry where
  created : Nat
  mNameResolutionCache : List UInt8 → Option URI
  configured : List UInt8 → Option ConfiguredService

/-- How `getService` goes on after its lookups. -/
inductive Found where
  | service (binder : Nat)
  | stubOf (text : List UInt8) (binder : Nat)
  | noPlugin
  | proxy (serviceUri : URI)

/-- Whether `catch (const Exception&)` catches it. -/
def isException : Failure → Bool
  | .nullPointer | .endless => false
  | .indexOutOfBoundsException | .numberFormatException _ | .illegalArgumentException _
  | .uriSyntaxException _ | .remoteException _ => true

namespace ConfiguredService

variable (service : ConfiguredService)

/-- `String::format("%u.%u", service->node->id, service->id)`. -/
def authority : List UInt8 :=
  Integer.decimal service.node.toNat ++ String.valueOf "." ++
    Integer.decimal service.id.toUInt32.toNat

/-- `proxyUri` for an interface that is announced. -/
def proxyUri (scheme interfaceDescriptor : List UInt8) : Except Failure URI := do
  let interfaceDescriptor ← URI.new interfaceDescriptor
  match interfaceDescriptor.mPath with
  | none => .error .nullPointer
  | some path => do
      let interface ← String.substringFrom path 1
      URI.ofParts (some scheme) (some service.authority)
        (some (String.valueOf "/if=" ++ String.cStr interface)) interfaceDescriptor.mQuery none

end ConfiguredService

namespace Names

variable (names : Names)

/-! ## Proxies -/

def create (proxyUri : URI) : Except Failure (Proxy × Names) := do
  let (proxy, runtime) ← names.toRuntime.createProxy proxyUri
  pure (proxy, { names with toRegistry := { names.toRegistry with toRuntime := runtime } })

/-- The inside of the `try` in `getProxy`. -/
def resolve (key scheme interfaceDescriptor : List UInt8) (service : ConfiguredService) :
    Except Failure (Option Proxy × Names) := do
  let proxyUri ← service.proxyUri scheme interfaceDescriptor
  let (proxy, names) ← names.create proxyUri
  pure (some proxy, { names with
    mNameResolutionCache := Function.update names.mNameResolutionCache key (some proxyUri) })

def getProxy (uri : URI) : Except Failure (Option Proxy × Names) :=
  match names.mNameResolutionCache uri.mString with
  | some proxyUri => do
      let (proxy, names) ← names.create proxyUri
      pure (some proxy, names)
  | none =>
      if names.mConfiguration.isNone then
        .ok (none, names)
      else
        match uri.mAuthority, uri.mScheme with
        | some authority, some scheme =>
            match names.configured authority with
            | none => .ok (none, names)
            | some service =>
                match service.announcements scheme with
                -- the exception of `new URI(nullptr)` is caught
                | none => .ok (none, names)
                | some interfaceDescriptor =>
                    match names.resolve uri.mString scheme interfaceDescriptor service with
                    | .ok resolved => .ok resolved
                    | .error failure =>
                        if isException failure then .ok (none, names) else .error failure
        | _, _ => .error .nullPointer

/-! ## Services -/

/-- `mServices->get(text)`. -/
def serviceAt (text : List UInt8) : Option Nat :=
  names.mServices.lookup text

/-- `String::format("%s%s", MINDROID_SCHEME_WITH_SEPARATOR, authority)`. -/
def mindroidText (authority : List UInt8) : List UInt8 :=
  Runtime.MINDROID_SCHEME_WITH_SEPARATOR ++ String.cStr authority

/-- `serviceUri`. -/
def serviceUriOf (uri : URI) : Except Failure URI :=
  match uri.mScheme with
  | some _ => .ok uri
  | none => URI.ofServerParts (some Runtime.MINDROID_SCHEME) uri.mUserInfo uri.mHost uri.mPort
      uri.mPath uri.mQuery uri.mFragment

def find (uri : URI) : Except Failure Found := do
  let serviceUri ← serviceUriOf uri
  match names.serviceAt serviceUri.mString with
  | some binder => pure (.service binder)
  | none =>
      match serviceUri.mAuthority with
      | none => .error .nullPointer
      | some authority =>
          match names.serviceAt (mindroidText authority) with
          | none => pure (.proxy serviceUri)
          | some binder =>
              match ← names.plugin serviceUri.mScheme with
              | none => pure .noPlugin
              | some _ => pure (.stubOf serviceUri.mString binder)

/-- The table gets a stub of the binder, if the plugin makes one. -/
def enterStub (text : List UInt8) (binder : Nat) (getStub : Option Stub) :
    Option (IBinder Nat) × Names :=
  match getStub with
  | none => (none, names)
  | some stub =>
      (some (.binder names.created), { names with
        alive := Function.update names.alive names.created true
        binders := Function.update names.binders names.created
          (stub.object (names.binders binder).mId)
        mServices := (text, names.created) :: names.mServices
        created := names.created + 1 })

/-- `getService`, with what the plugin returns if it is asked for a stub. -/
def getService (uri : Option URI) (getStub : Option Stub) :
    Except Failure (Option (IBinder Nat) × Names) :=
  match uri with
  | none => .error .nullPointer
  | some uri => do
      match ← names.find uri with
      | .service binder => pure (some (.binder binder), names)
      | .noPlugin => pure (none, names)
      | .stubOf text binder => pure (names.enterStub text binder getStub)
      | .proxy serviceUri => do
          let (proxy, names) ← names.getProxy serviceUri
          pure (proxy.map .proxy, names)

/-- A reference to a binder is one to an object that there is. -/
def refersToObject : Option (IBinder Nat) → Bool
  | some (.binder binder) => decide (binder < names.created)
  | _ => true

end Names

/-! ## Runs -/

/-- The names, and the directory of what was added, made and removed so far. -/
structure Services where
  names : Names
  directory : Directory (List UInt8) Nat

inductive ServiceCall where
  | addService (uri : Option MadeURI) (service : Option (IBinder Nat))
  | removeService (service : Option (IBinder Nat))
  | getService (uri : Option MadeURI) (getStub : Option Stub)

namespace Services

variable (st : Services)

def addService (uri : Option MadeURI) (service : Option (IBinder Nat)) : Services :=
  match st.names.addService (uri.map MadeURI.uri) service with
  | .error _ => st
  | .ok added =>
      { names := { st.names with toRegistry := added }
        directory :=
          match uri, service with
          | some uri, some (.binder binder) => st.directory.register uri.uri.mString binder
          | _, _ => st.directory }

def removeService (service : Option (IBinder Nat)) : Services where
  names := { st.names with toRegistry := st.names.toRegistry.removeService service }
  directory :=
    match service with
    | some (.binder binder) => st.directory.withdraw binder
    | _ => st.directory

/-- A stub that is entered is derived from the service of which it was made. -/
def derives (uri : URI) (getStub : Option Stub) : Directory (List UInt8) Nat :=
  match st.names.find uri, getStub with
  | .ok (.stubOf text binder), some _ => st.directory.derive text binder st.names.created
  | _, _ => st.directory

def getService (uri : Option MadeURI) (getStub : Option Stub) : Services :=
  match uri with
  | none => st
  | some uri =>
      match st.names.getService (some uri.uri) getStub with
      | .error _ => st
      | .ok (_, names) => { names := names, directory := st.derives uri.uri getStub }

def step : ServiceCall → Option Services
  | .addService uri service =>
      if st.names.refersToObject service then some (st.addService uri service) else none
  | .removeService service =>
      if st.names.refersToObject service then some (st.removeService service) else none
  | .getService uri getStub => some (st.getService uri getStub)

end Services

/-- No service is entered and no name resolved yet. -/
def Names.start (names : Names) : Services where
  names := { names with mServices := [], mNameResolutionCache := fun _ => none }
  directory := Directory.empty

namespace Services

variable (before : Services)

/-- What `getService` returns. -/
def answer (uri : URI) (getStub : Option Stub) : Except Failure (Option (IBinder Nat)) :=
  (before.names.getService (some uri) getStub).map Prod.fst

/-- What `getProxy` returns. -/
def proxyAnswer (serviceUri : URI) : Except Failure (Option (IBinder Nat)) :=
  (before.names.getProxy serviceUri).map fun found => found.1.map .proxy

/-- The stub of a service is returned once it is made, and made of the service before. -/
def ReturnsStub (uri : URI) (text : List UInt8) (service : Nat) (getStub : Option Stub)
    (after : Services) : Prop :=
  match before.directory.derived text, getStub with
  | some stub, _ => before.answer uri getStub = .ok (some (.binder stub)) ∧
      before.directory.sources stub = stub :: before.directory.sources service
  | none, none => before.answer uri getStub = .ok none
  | none, some _ => ∃ stub, before.answer uri getStub = .ok (some (.binder stub)) ∧
      after.directory.derived text = some stub ∧
        after.directory.sources stub = stub :: before.directory.sources service

/-- No null pointer is dereferenced.  For a URI of the scheme `mindroid` its service is returned, or
a proxy if there is none, and for a URI of another scheme with a plugin, and without a service of
its own, the stub of the service with the same authority.  Nothing is returned that was removed. -/
structure Gets (uri : URI) (getStub : Option Stub) (after : Services) : Prop where
  notNull : before.answer uri getStub ≠ .error .nullPointer
  mindroid : ∀ serviceUri, Names.serviceUriOf uri = .ok serviceUri →
    serviceUri.mScheme = some Runtime.MINDROID_SCHEME →
      before.answer uri getStub =
        match before.directory.registered serviceUri.mString with
        | some service => .ok (some (.binder service))
        | none => before.proxyAnswer serviceUri
  other : ∀ serviceUri scheme authority service, Names.serviceUriOf uri = .ok serviceUri →
    serviceUri.mScheme = some scheme → scheme ≠ Runtime.MINDROID_SCHEME →
      (before.names.mPlugins scheme).isSome → serviceUri.mAuthority = some authority →
        before.directory.registered serviceUri.mString = none →
          before.directory.registered (Names.mindroidText authority) = some service →
            before.ReturnsStub uri serviceUri.mString service getStub after
  present : ∀ binder, before.answer uri getStub = .ok (some (.binder binder)) →
    ∀ source ∈ after.directory.sources binder, after.directory.withdrawn source = false

/-- Services that are not the removed one, and not made from it, stay. -/
def Leaves (service : IBinder Nat) (after : Services) : Prop :=
  ∀ text binder, before.directory.registered text = some binder →
    (∀ removed, service = .binder removed → removed ∉ before.directory.sources binder) →
      after.names.serviceAt text = some binder

def Right : ServiceCall → Services → Prop
  | .getService (some uri) getStub, after => before.Gets uri.uri getStub after
  | .removeService (some service), after => before.Leaves service after
  | _, _ => True

/-- The configuration is asked for a URI that has not been resolved. -/
def Resolves (serviceUri : URI) (authority : List UInt8) : Prop :=
  before.names.mConfiguration.isSome ∧ serviceUri.mAuthority = some authority ∧
    before.names.serviceAt (Names.mindroidText authority) = none ∧
      before.names.mNameResolutionCache serviceUri.mString = none

/-- An interface that is announced has a path. -/
def PathsAnnounced (serviceUri : URI) : Prop :=
  ∀ authority scheme service descriptor interfaceDescriptor,
    before.Resolves serviceUri authority → serviceUri.mScheme = some scheme →
      before.names.configured authority = some service →
        service.announcements scheme = some descriptor →
          URI.new descriptor = .ok interfaceDescriptor → interfaceDescriptor.mPath.isSome

/-- A URI under which nothing is found has an authority, which is not the one of a service if the
scheme is `mindroid`, and an interface that is announced for it has a path. -/
structure Findable (serviceUri : URI) : Prop where
  authority : serviceUri.mAuthority.isSome
  mindroid : serviceUri.mScheme = some Runtime.MINDROID_SCHEME →
    ∀ authority, serviceUri.mAuthority = some authority →
      before.names.serviceAt (Names.mindroidText authority) = none
  announced : before.PathsAnnounced serviceUri

/-- A service that is removed and what was made from it have an id that no other service has, and a
stub of a service that is removed is not added. -/
def Permitted : ServiceCall → Prop
  | .addService _ (some (.binder binder)) => ∀ source ∈ before.directory.sources binder,
      source ≠ binder → before.directory.withdrawn source = false
  | .removeService (some service) => ∀ entry ∈ before.names.mServices,
      (before.names.binders entry.2).mId = before.names.serviceId service ↔
        ∃ removed, service = .binder removed ∧ removed ∈ before.directory.sources entry.2
  | .getService (some uri) _ => ∀ serviceUri, Names.serviceUriOf uri.uri = .ok serviceUri →
      before.names.serviceAt serviceUri.mString = none → before.Findable serviceUri
  | _ => True

end Services

end Mindroid
