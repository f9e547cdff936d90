import Mindroid.Foundation.Throwing
import Mindroid.Runtime.System.Runtime

/-!
# The plugins of the runtime

A function of the runtime that is about a URI or a binder forwards a call to the plugin that is
registered for the scheme.  One of them forwards it to another function of the plugin.
-/

set_option autoImplicit false

namespace Mindroid

open Foundation Throwing

/-- The promise that a function of a plugin has returned, or a new one that has failed. -/
inductive VoidPromise where
  | null
  | promise (address : Nat)
  | failed (thrown : Failure)

/-- The virtual functions of a plugin.  Objects that they only hand on are known by their
addresses. -/
structure Plugin where
  start : URI → Option Nat → Except Failure VoidPromise
  stop : URI → Option Nat → Except Failure VoidPromise
  connect : URI → Option Nat → Except Failure VoidPromise
  disconnect : URI → Option Nat → Except Failure VoidPromise
  attachProxy : UInt64 → Proxy → Except Failure Unit
  detachProxy : UInt64 → UInt64 → Except Failure Unit
  getProxy : Nat → Except Failure (Option Nat)
  transact : Nat → Int32 → Option Nat → Int32 → Except Failure (Option Nat)
  link : Nat → Nat → Option Nat → Except Failure Unit
  unlink : Nat → Nat → Option Nat → Except Failure Bool

namespace Plugin

/-- A call of a virtual function, with its arguments. -/
inductive Operation where
  | start (uri : URI) (extras : Option Nat)
  | stop (uri : URI) (extras : Option Nat)
  | connect (node : URI) (extras : Option Nat)
  | disconnect (node : URI) (extras : Option Nat)
  | attachProxy (proxyId : UInt64) (proxy : Proxy)
  | detachProxy (proxyId binderId : UInt64)
  | getProxy (binder : Nat)
  | transact (binder : Nat) (what : Int32) (data : Option Nat) (flags : Int32)
  | link (binder supervisor : Nat) (extras : Option Nat)
  | unlink (binder supervisor : Nat) (extras : Option Nat)

/-- What a function of a plugin or of the runtime returns. -/
inductive Reply where
  | nothing
  | id (id : UInt64)
  | voidPromise (promise : VoidPromise)
  | object (address : Option Nat)
  | bool (value : Bool)

/-- What a virtual function returns. -/
def reply (plugin : Plugin) : Operation → Except Failure Reply
  | .start uri extras => .voidPromise <$> plugin.start uri extras
  | .stop uri extras => .voidPromise <$> plugin.stop uri extras
  | .connect node extras => .voidPromise <$> plugin.connect node extras
  | .disconnect node extras => .voidPromise <$> plugin.disconnect node extras
  | .attachProxy proxyId proxy => (fun _ => .nothing) <$> plugin.attachProxy proxyId proxy
  | .detachProxy proxyId binderId => (fun _ => .nothing) <$> plugin.detachProxy proxyId binderId
  | .getProxy binder => .object <$> plugin.getProxy binder
  | .transact binder what data flags => .object <$> plugin.transact binder what data flags
  | .link binder supervisor extras => (fun _ => .nothing) <$> plugin.link binder supervisor extras
  | .unlink binder supervisor extras => .bool <$> plugin.unlink binder supervisor extras

end Plugin

open Plugin (Operation Reply)

/-- The plugins that are registered for schemes, what their functions do, and the URIs of
binders. -/
structure Dispatcher where
  mPlugins : List UInt8 → Option Nat
  plugins : Nat → Plugin
  getUri : Nat → URI

/-- The next id of a proxy, and the calls of functions of plugins until now. -/
structure Dispatched where
  mProxyIdGenerator : Int32
  calls : List (Nat × Operation)

namespace Dispatcher

/-- `IBinder::FLAG_ONEWAY`. -/
def FLAG_ONEWAY : Int32 :=
  1

def remoteException (message : String) : Failure :=
  .remoteException (String.valueOf message)

variable (runtime : Dispatcher)

/-- The call of a virtual function. -/
def call {α : Type} (plugin : Nat) (operation : Operation) (outcome : Except Failure α) :
    Throwing Failure Dispatched α := do
  modify fun st => { st with calls := st.calls ++ [(plugin, operation)] }
  match outcome with
  | .ok result => pure result
  | .error thrown => throw thrown

/-- What the functions of the runtime do with the plugin for a scheme. -/
def dispatch {α : Type} (scheme : Option (List UInt8))
    (registered : Nat → Throwing Failure Dispatched α)
    (unregistered : Throwing Failure Dispatched α) : Throwing Failure Dispatched α :=
  match scheme with
  | none => throw .nullPointer
  | some scheme =>
      match runtime.mPlugins scheme with
      | some plugin => registered plugin
      | none => unregistered

def start (uri : URI) (extras : Option Nat) : Throwing Failure Dispatched VoidPromise :=
  runtime.dispatch uri.mScheme
    (fun plugin => call plugin (.start uri extras) ((runtime.plugins plugin).start uri extras))
    (pure (.failed (remoteException "Plugin start failure")))

def stop (uri : URI) (extras : Option Nat) : Throwing Failure Dispatched VoidPromise :=
  runtime.dispatch uri.mScheme
    (fun plugin => call plugin (.start uri extras) ((runtime.plugins plugin).start uri extras))
    (pure (.failed (remoteException "Plugin stop failure")))

def connect (node : URI) (extras : Option Nat) : Throwing Failure Dispatched VoidPromise :=
  runtime.dispatch node.mScheme
    (fun plugin =>
      call plugin (.connect node extras) ((runtime.plugins plugin).connect node extras))
    (pure (.failed (remoteException "Node connection failure")))

def disconnect (node : URI) (extras : Option Nat) : Throwing Failure Dispatched VoidPromise :=
  runtime.dispatch node.mScheme
    (fun plugin =>
      call plugin (.disconnect node extras) ((runtime.plugins plugin).disconnect node extras))
    (pure (.failed (remoteException "Node disconnection failure")))

def attachProxy (proxy : Option Proxy) : Throwing Failure Dispatched UInt64 :=
  match proxy with
  | none => throw .nullPointer
  | some proxy => do
      let st ← get
      let proxyId := st.mProxyIdGenerator.toInt64.toUInt64
      set { st with mProxyIdGenerator := st.mProxyIdGenerator + 1 }
      runtime.dispatch proxy.mUri.mScheme
        (fun plugin => call plugin (.attachProxy proxyId proxy)
          ((runtime.plugins plugin).attachProxy proxyId proxy))
        (pure ())
      return proxyId

def detachProxy (id : UInt64) (uri : Option URI) (proxyId : UInt64) :
    Throwing Failure Dispatched Unit :=
  match uri with
  | none => throw .nullPointer
  | some uri =>
      runtime.dispatch uri.mScheme
        (fun plugin =>
          call plugin (.detachProxy proxyId id) ((runtime.plugins plugin).detachProxy proxyId id))
        (pure ())

def getProxy (binder : Option Nat) : Throwing Failure Dispatched (Option Nat) :=
  match binder with
  | none => throw .nullPointer
  | some binder =>
      runtime.dispatch (runtime.getUri binder).mScheme
        (fun plugin => call plugin (.getProxy binder) ((runtime.plugins plugin).getProxy binder))
        (pure none)

def transact (binder : Option Nat) (what : Int32) (data : Option Nat) (flags : Int32) :
    Throwing Failure Dispatched (Option Nat) :=
  match binder with
  | none => throw .nullPointer
  | some binder =>
      runtime.dispatch (runtime.getUri binder).mScheme
        (fun plugin => do
          let promise ← call plugin (.transact binder what data flags)
            ((runtime.plugins plugin).transact binder what data flags)
          if flags &&& FLAG_ONEWAY = 0 ∧ promise = none then
            throw (remoteException "Binder transaction failure")
          else
            return promise)
        (throw (remoteException "Binder transaction failure"))

def link (binder supervisor : Option Nat) (extras : Option Nat) :
    Throwing Failure Dispatched Unit :=
  match binder, supervisor with
  | some binder, some supervisor =>
      runtime.dispatch (runtime.getUri binder).mScheme
        (fun plugin => call plugin (.link binder supervisor extras)
          ((runtime.plugins plugin).link binder supervisor extras))
        (throw (remoteException "Binder linking failure"))
  | _, _ => throw .nullPointer

def unlink (binder supervisor : Option Nat) (extras : Option Nat) :
    Throwing Failure Dispatched Bool :=
  match binder, supervisor with
  | some binder, some supervisor =>
      runtime.dispatch (runtime.getUri binder).mScheme
        (fun plugin => call plugin (.unlink binder supervisor extras)
          ((runtime.plugins plugin).unlink binder supervisor extras))
        (pure true)
  | _, _ => throw .nullPointer

/-! ## What is forwarded -/

/-- A call of a function of the runtime, with arguments that are not null where the function has to
know them. -/
inductive Request where
  | start (uri : URI) (extras : Option Nat)
  | stop (uri : URI) (extras : Option Nat)
  | connect (node : URI) (extras : Option Nat)
  | disconnect (node : URI) (extras : Option Nat)
  | attachProxy (proxy : Proxy)
  | detachProxy (id : UInt64) (uri : URI) (proxyId : UInt64)
  | getProxy (binder : Nat)
  | transact (binder : Nat) (what : Int32) (data : Option Nat) (flags : Int32)
  | link (binder supervisor : Nat) (extras : Option Nat)
  | unlink (binder supervisor : Nat) (extras : Option Nat)

def perform : Request → Throwing Failure Dispatched Reply
  | .start uri extras => .voidPromise <$> runtime.start uri extras
  | .stop uri extras => .voidPromise <$> runtime.stop uri extras
  | .connect node extras => .voidPromise <$> runtime.connect node extras
  | .disconnect node extras => .voidPromise <$> runtime.disconnect node extras
  | .attachProxy proxy => .id <$> runtime.attachProxy (some proxy)
  | .detachProxy id uri proxyId => (fun _ => .nothing) <$> runtime.detachProxy id (some uri) proxyId
  | .getProxy binder => .object <$> runtime.getProxy (some binder)
  | .transact binder what data flags => .object <$> runtime.transact (some binder) what data flags
  | .link binder supervisor extras =>
      (fun _ => .nothing) <$> runtime.link (some binder) (some supervisor) extras
  | .unlink binder supervisor extras =>
      .bool <$> runtime.unlink (some binder) (some supervisor) extras

/-- The scheme of the URI or of the binder. -/
def schemeOf : Request → Option (List UInt8)
  | .start uri _ | .stop uri _ | .connect uri _ | .disconnect uri _ => uri.mScheme
  | .attachProxy proxy => proxy.mUri.mScheme
  | .detachProxy _ uri _ => uri.mScheme
  | .getProxy binder | .transact binder _ _ _ | .link binder _ _ | .unlink binder _ _ =>
      (runtime.getUri binder).mScheme

namespace Request

/-- The id that the next proxy gets. -/
def nextId (st : Dispatched) : UInt64 :=
  st.mProxyIdGenerator.toInt64.toUInt64

/-- The call of the function of the same name, with the same arguments. -/
def operation (st : Dispatched) : Request → Operation
  | start uri extras => .start uri extras
  | stop uri extras => .stop uri extras
  | connect node extras => .connect node extras
  | disconnect node extras => .disconnect node extras
  | attachProxy proxy => .attachProxy (nextId st) proxy
  | detachProxy id _ proxyId => .detachProxy proxyId id
  | getProxy binder => .getProxy binder
  | transact binder what data flags => .transact binder what data flags
  | link binder supervisor extras => .link binder supervisor extras
  | unlink binder supervisor extras => .unlink binder supervisor extras

/-- The result for the result of the plugin: the id is that of the runtime. -/
def result (st : Dispatched) : Request → Reply → Reply
  | attachProxy _, _ => .id (nextId st)
  | _, reply => reply

/-- The result without a plugin. -/
def unregistered (st : Dispatched) : Request → Except Failure Reply
  | start _ _ => .ok (.voidPromise (.failed (remoteException "Plugin start failure")))
  | stop _ _ => .ok (.voidPromise (.failed (remoteException "Plugin stop failure")))
  | connect _ _ => .ok (.voidPromise (.failed (remoteException "Node connection failure")))
  | disconnect _ _ => .ok (.voidPromise (.failed (remoteException "Node disconnection failure")))
  | attachProxy _ => .ok (.id (nextId st))
  | detachProxy _ _ _ => .ok .nothing
  | getProxy _ => .ok (.object none)
  | transact _ _ _ _ => .error (remoteException "Binder transaction failure")
  | link _ _ _ => .error (remoteException "Binder linking failure")
  | unlink _ _ _ => .ok (.bool true)

/-- A new proxy uses up an id. -/
def counted (st : Dispatched) : Request → Dispatched
  | attachProxy _ => { st with mProxyIdGenerator := st.mProxyIdGenerator + 1 }
  | _ => st

end Request

/-- The function of the same name is called once with the same arguments, of the plugin for the
scheme and of no other one, and its result is returned; without such a plugin none is called. -/
def forwarded (st : Dispatched) (request : Request) (scheme : List UInt8) :
    Except Failure Reply × Dispatched :=
  match runtime.mPlugins scheme with
  | some plugin => (request.result st <$> (runtime.plugins plugin).reply (request.operation st),
      { request.counted st with calls := st.calls ++ [(plugin, request.operation st)] })
  | none => (request.unregistered st, request.counted st)

/-- What a function of the runtime does for a scheme is what is forwarded. -/
def Forwards (st : Dispatched) (request : Request) : Prop :=
  ∀ scheme, runtime.schemeOf request = some scheme →
    outcome (runtime.perform request) st = runtime.forwarded st request scheme

/-- No plugin is to be stopped, and no null is returned for a promise that is waited for. -/
def Forwardable (request : Request) : Prop :=
  match request with
  | .stop uri _ => ∀ scheme, uri.mScheme = some scheme → runtime.mPlugins scheme = none
  | .transact binder what data flags =>
      ∀ scheme plugin, (runtime.getUri binder).mScheme = some scheme →
        runtime.mPlugins scheme = some plugin → flags &&& FLAG_ONEWAY = 0 →
          (runtime.plugins plugin).transact binder what data flags ≠ .ok none
  | _ => True

section Dispatching

variable {runtime : Dispatcher} {st : Dispatched} {scheme : List UInt8} {plugin : Nat} {α : Type}

theorem outcome_call (plugin : Nat) (operation : Operation) (returned : Except Failure α)
    (st : Dispatched) : outcome (call plugin operation returned) st =
      (returned, { st with calls := st.calls ++ [(plugin, operation)] }) := by
  cases returned with
  | ok result => rfl
  | error thrown => rfl

theorem dispatch_registered {registered : Nat → Throwing Failure Dispatched α}
    {unregistered : Throwing Failure Dispatched α}
    (found : runtime.mPlugins scheme = some plugin) :
    runtime.dispatch (some scheme) registered unregistered = registered plugin := by
  rw [dispatch, found]

theorem dispatch_unregistered {registered : Nat → Throwing Failure Dispatched α}
    {unregistered : Throwing Failure Dispatched α} (missing : runtime.mPlugins scheme = none) :
    runtime.dispatch (some scheme) registered unregistered = unregistered := by
  rw [dispatch, missing]

theorem forwarded_registered (request : Request) (found : runtime.mPlugins scheme = some plugin) :
    runtime.forwarded st request scheme =
      (request.result st <$> (runtime.plugins plugin).reply (request.operation st),
        { request.counted st with calls := st.calls ++ [(plugin, request.operation st)] }) := by
  rw [forwarded, found]

theorem forwarded_unregistered (request : Request) (missing : runtime.mPlugins scheme = none) :
    runtime.forwarded st request scheme = (request.unregistered st, request.counted st) := by
  rw [forwarded, missing]

/-- A function of the runtime that only forwards a call. -/
theorem forwards_dispatch {request : Request} (wrap : α → Reply)
    {returned : Nat → Except Failure α} {unregistered : Throwing Failure Dispatched α}
    (performs : runtime.perform request = wrap <$> runtime.dispatch (runtime.schemeOf request)
      (fun plugin => call plugin (request.operation st) (returned plugin)) unregistered)
    (replies : ∀ plugin, (runtime.plugins plugin).reply (request.operation st) =
      wrap <$> returned plugin)
    (results : request.result st = id)
    (misses : outcome (wrap <$> unregistered) st = (request.unregistered st, st))
    (counts : request.counted st = st) : runtime.Forwards st request := by
  intro scheme isScheme
  rw [performs, isScheme]
  cases found : runtime.mPlugins scheme with
  | none => rw [dispatch_unregistered found, forwarded_unregistered request found, misses, counts]
  | some plugin =>
      rw [dispatch_registered found, forwarded_registered request found, outcome_map, outcome_call,
        replies, counts, results, id_map]

/-- An id is taken before a proxy is handed on. -/
theorem forwards_attachProxy (proxy : Proxy) : runtime.Forwards st (.attachProxy proxy) := by
  intro scheme isScheme
  change proxy.mUri.mScheme = some scheme at isScheme
  rw [perform, attachProxy, isScheme]
  cases found : runtime.mPlugins scheme with
  | none =>
      simp only [dispatch_unregistered found]
      rw [forwarded_unregistered _ found]
      rfl
  | some plugin =>
      simp only [dispatch_registered found]
      have reply : (runtime.plugins plugin).reply (Request.operation st (.attachProxy proxy)) =
          (fun _ => .nothing) <$>
            (runtime.plugins plugin).attachProxy st.mProxyIdGenerator.toInt64.toUInt64 proxy := rfl
      rw [forwarded_registered _ found, reply]
      cases attached :
          (runtime.plugins plugin).attachProxy st.mProxyIdGenerator.toInt64.toUInt64 proxy with
      | ok result =>
          rw [outcome_map, outcome_bind_ok outcome_get]
          simp only [attached]
          rfl
      | error thrown =>
          rw [outcome_map, outcome_bind_ok outcome_get]
          simp only [attached]
          rfl

/-- Stopping a plugin calls its function that starts. -/
theorem outcome_stop {uri : URI} {extras : Option Nat} (isScheme : uri.mScheme = some scheme)
    (found : runtime.mPlugins scheme = some plugin) :
    outcome (runtime.perform (.stop uri extras)) st =
      (.voidPromise <$> (runtime.plugins plugin).start uri extras,
        { st with calls := st.calls ++ [(plugin, .start uri extras)] }) := by
  rw [perform, stop, isScheme, dispatch_registered found, outcome_map, outcome_call]

theorem forwards_stop_iff (uri : URI) (extras : Option Nat) :
    runtime.Forwards st (.stop uri extras) ↔
      ∀ scheme, uri.mScheme = some scheme → runtime.mPlugins scheme = none := by
  constructor
  · intro forwards scheme isScheme
    cases found : runtime.mPlugins scheme with
    | none => rfl
    | some plugin =>
        have same := forwards scheme isScheme
        rw [outcome_stop isScheme found, forwarded_registered _ found] at same
        have calls := congrArg (fun result => result.2.calls) same
        cases List.append_cancel_left calls
  · intro missing scheme isScheme
    change uri.mScheme = some scheme at isScheme
    rw [perform, stop, isScheme, dispatch_unregistered (missing scheme isScheme),
      forwarded_unregistered _ (missing scheme isScheme)]
    rfl

/-- A null that is returned for a promise that is waited for becomes an exception. -/
theorem outcome_transact {binder : Nat} {what : Int32} {data : Option Nat} {flags : Int32}
    (isScheme : (runtime.getUri binder).mScheme = some scheme)
    (found : runtime.mPlugins scheme = some plugin) :
    outcome (runtime.perform (.transact binder what data flags)) st =
      (if flags &&& FLAG_ONEWAY = 0 ∧
          (runtime.plugins plugin).transact binder what data flags = .ok none then
        .error (remoteException "Binder transaction failure")
      else
        .object <$> (runtime.plugins plugin).transact binder what data flags,
      { st with calls := st.calls ++ [(plugin, .transact binder what data flags)] }) := by
  rw [perform, transact, isScheme, dispatch_registered found, outcome_map]
  cases returned : (runtime.plugins plugin).transact binder what data flags with
  | error thrown =>
      rw [outcome_bind_error (outcome_call _ _ _ _), if_neg]
      rintro ⟨_, none⟩
      cases none
  | ok promise =>
      rw [outcome_bind_ok (outcome_call _ _ _ _)]
      by_cases failed : flags &&& FLAG_ONEWAY = 0 ∧ promise = none
      · rw [if_pos failed, if_pos ⟨failed.1, congrArg Except.ok failed.2⟩]
        rfl
      · rw [if_neg failed, if_neg fun both => failed ⟨both.1, Except.ok.inj both.2⟩]
        rfl

theorem forwards_transact_iff (binder : Nat) (what : Int32) (data : Option Nat) (flags : Int32) :
    runtime.Forwards st (.transact binder what data flags) ↔
      ∀ scheme plugin, (runtime.getUri binder).mScheme = some scheme →
        runtime.mPlugins scheme = some plugin → flags &&& FLAG_ONEWAY = 0 →
          (runtime.plugins plugin).transact binder what data flags ≠ .ok none := by
  constructor
  · intro forwards scheme plugin isScheme found twoWay null
    have same := forwards scheme isScheme
    rw [outcome_transact isScheme found, forwarded_registered _ found, if_pos ⟨twoWay, null⟩] at same
    have results := congrArg Prod.fst same
    change _ = id <$> (Reply.object <$>
      (runtime.plugins plugin).transact binder what data flags) at results
    rw [null] at results
    cases results
  · intro promised scheme isScheme
    change (runtime.getUri binder).mScheme = some scheme at isScheme
    cases found : runtime.mPlugins scheme with
    | none =>
        rw [perform, transact, isScheme, dispatch_unregistered found, forwarded_unregistered _ found]
        rfl
    | some plugin =>
        rw [outcome_transact isScheme found, forwarded_registered _ found,
          if_neg fun both => promised scheme plugin isScheme found both.1 both.2]
        have same : Request.result st (.transact binder what data flags) = id := rfl
        rw [same, id_map]
        rfl

end Dispatching

/-- A function of the runtime forwards the call of the plugin's function of the same name, unless it
is to stop a plugin or gets no promise that it can wait for. -/
theorem forwards_iff (runtime : Dispatcher) (st : Dispatched) (request : Request) :
    runtime.Forwards st request ↔ runtime.Forwardable request := by
  cases request with
  | start uri extras =>
      exact iff_of_true (forwards_dispatch .voidPromise rfl (fun _ => rfl) rfl rfl rfl) trivial
  | stop uri extras => exact forwards_stop_iff uri extras
  | connect node extras =>
      exact iff_of_true (forwards_dispatch .voidPromise rfl (fun _ => rfl) rfl rfl rfl) trivial
  | disconnect node extras =>
      exact iff_of_true (forwards_dispatch .voidPromise rfl (fun _ => rfl) rfl rfl rfl) trivial
  | attachProxy proxy => exact iff_of_true (forwards_attachProxy proxy) trivial
  | detachProxy id uri proxyId =>
      exact iff_of_true (forwards_dispatch (fun _ => .nothing) rfl (fun _ => rfl) rfl rfl rfl) trivial
  | getProxy binder =>
      exact iff_of_true (forwards_dispatch .object rfl (fun _ => rfl) rfl rfl rfl) trivial
  | transact binder what data flags => exact forwards_transact_iff binder what data flags
  | link binder supervisor extras =>
      exact iff_of_true (forwards_dispatch (fun _ => .nothing) rfl (fun _ => rfl) rfl rfl rfl) trivial
  | unlink binder supervisor extras =>
      exact iff_of_true (forwards_dispatch .bool rfl (fun _ => rfl) rfl rfl rfl) trivial

/-- A plugin whose functions give no promises. -/
def silent : Plugin where
  start _ _ := .ok .null
  stop _ _ := .ok .null
  connect _ _ := .ok .null
  disconnect _ _ := .ok .null
  attachProxy _ _ := .ok ()
  detachProxy _ _ := .ok ()
  getProxy _ := .ok none
  transact _ _ _ _ := .ok none
  link _ _ _ := .ok ()
  unlink _ _ _ := .ok true

/-- A plugin for the scheme `mindroid`. -/
def withSilent : Dispatcher where
  mPlugins scheme := if scheme = Runtime.MINDROID_SCHEME then some 7 else none
  plugins _ := silent
  getUri _ := { mString := [], mScheme := some Runtime.MINDROID_SCHEME }

/-- The plugin is started instead of stopped. -/
theorem stop_starts : ¬withSilent.Forwards { mProxyIdGenerator := 1, calls := [] }
    (.stop { mString := [], mScheme := some Runtime.MINDROID_SCHEME } none) := by
  intro forwards
  have same := forwards Runtime.MINDROID_SCHEME rfl
  have calls := congrArg (fun result => result.2.calls) same
  cases calls

end Dispatcher

end Mindroid
