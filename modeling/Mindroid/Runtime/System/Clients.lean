import Mathlib.Logic.Function.Basic
import Mindroid.Foundation.Transition

/-!
# The clients of the runtime plugin

The plugin keeps one client for every node that it has a connection to.  A section under
the plugin's lock is one step; everything else that a call does happens between such
steps.  A call is a call of `Mindroid::transact` or the `run` of a connection, each with
the shutdown that it may end in.
-/

set_option autoImplicit false

namespace Mindroid

open Foundation

namespace Plugin

/-- `ServiceDiscoveryConfigurationReader::Configuration::Node`: its id, and the uri of the
server of every plugin that has one. -/
structure ConfigurationNode where
  id : UInt32
  plugins : String → Option (Option String)

/-- The configuration reader puts every node under its id. -/
structure Configuration where
  nodes : UInt32 → Option ConfigurationNode
  nodes_id : ∀ {nodeId node}, nodes nodeId = some node → node.id = nodeId

/-- A `Client`, in the order of creation. -/
abbrev ClientId := Nat

/-- A call of `Mindroid::transact` or a thread of a connection. -/
abbrev CallId := Nat

/-- What a call has to do next. -/
inductive Call where
  | idle
  /-- In `Client::transact`, which writes to the connection. -/
  | transacts (client : ClientId)
  /-- In `Connection::run`, which reads from it. -/
  | runs (client : ClientId)
  /-- At the start of `Client::shutdown`. -/
  | shutsDown (client : ClientId)
  /-- Before the lock in `Mindroid::onShutdown`. -/
  | notifies (client : ClientId)
  /-- Before `mPlugin.clear()`. -/
  | clears (client : ClientId)
  /-- In the rest of `Client::shutdown`. -/
  | completes (client : ClientId)
  /-- After `mPlugin->onShutdown(this)` without a plugin. -/
  | crashed
  deriving DecidableEq, Repr

/-- What `AbstractClient::start` does. -/
inductive Start where
  /-- It creates a connection, whose thread it starts. -/
  | connects
  /-- It throws after `Client::shutdown`. -/
  | fails
  /-- It throws because of the uri. -/
  | rejects
  deriving DecidableEq, Repr

/-- The last three fields are the history of the shutdowns. -/
structure Clients where
  mClients : UInt32 → Option ClientId
  mNodeId : ClientId → UInt32
  /-- Whether the client still has its reference to the plugin. -/
  mPlugin : ClientId → Bool
  created : Nat
  calls : CallId → Call
  /-- A call has entered the shutdown of the client. -/
  begun : ClientId → Bool
  /-- A call has removed the entry for the node of the client. -/
  removed : ClientId → Bool
  /-- A call has returned from the shutdown of the client. -/
  returned : ClientId → Bool

inductive Action where
  | transact (call reader : CallId) (binderId : UInt64) (scheme : String) (start : Start)
  /-- `Client::transact` or `Connection::run` ends without an `IOException`. -/
  | ends (call : CallId)
  /-- It catches an `IOException`. -/
  | catches (call : CallId)
  | dereferences (call : CallId)
  | onShutdown (call : CallId)
  | clear (call : CallId)
  | returns (call : CallId)
  deriving DecidableEq, Repr

namespace Clients

/-- Before the first call. -/
def initial : Clients where
  mClients _ := none
  mNodeId _ := 0
  mPlugin _ := false
  created := 0
  calls _ := .idle
  begun _ := false
  removed _ := false
  returned _ := false

def goOn (clients : Clients) (call : CallId) (next : Call) : Clients :=
  { clients with calls := Function.update clients.calls call next }

/-- The node and the server that a client is created for. -/
def server (configuration : Option Configuration) (nodeId : UInt32) (scheme : String) :
    Option (UInt32 × String) := do
  let node ← (← configuration).nodes nodeId
  let uri ← ← node.plugins scheme
  pure (node.id, uri)

/-- `new Client(this, nodeId)` and the thread of its connection. -/
def connect (clients : Clients) (reader : CallId) (nodeId : UInt32) : Clients :=
  { clients with
    mNodeId := Function.update clients.mNodeId clients.created nodeId
    mPlugin := Function.update clients.mPlugin clients.created true
    created := clients.created + 1
    calls := Function.update clients.calls reader (.runs clients.created) }

/-- `mClients->put(nodeId, client)`. -/
def put (clients : Clients) (nodeId : UInt32) (client : ClientId) : Clients :=
  { clients with mClients := Function.update clients.mClients nodeId (some client) }

/-- `mClients->remove(nodeId)`. -/
def remove (clients : Clients) (nodeId : UInt32) : Clients :=
  { clients with mClients := Function.update clients.mClients nodeId none }

/-- The section under the lock of `Mindroid::transact`, and what a client that cannot be
started does in it.  Such a client is gone after it. -/
def lookUp (configuration : Option Configuration) (clients : Clients) (call reader : CallId)
    (nodeId : UInt32) (scheme : String) (start : Start) : Clients :=
  match clients.mClients nodeId with
  | some client => clients.goOn call (.transacts client)
  | none =>
      match server configuration nodeId scheme with
      | none => clients
      | some (id, _) =>
          match start with
          | .connects =>
              ((clients.connect reader id).put nodeId clients.created).goOn call
                (.transacts clients.created)
          | .fails => clients.remove id
          | .rejects => clients

/-- The step of an action, if it is possible. -/
def step (configuration : Option Configuration) (clients : Clients) : Action → Option Clients
  | .transact call reader binderId scheme start =>
      if clients.calls call = .idle ∧ clients.calls reader = .idle ∧ reader ≠ call then
        some (clients.lookUp configuration call reader (binderId >>> 32).toUInt32 scheme start)
      else
        none
  | .ends call =>
      match clients.calls call with
      | .transacts _ | .runs _ => some (clients.goOn call .idle)
      | _ => none
  | .catches call =>
      match clients.calls call with
      | .transacts client | .runs client =>
          some
            { clients.goOn call (.shutsDown client) with
              begun := Function.update clients.begun client true }
      | _ => none
  | .dereferences call =>
      match clients.calls call with
      | .shutsDown client =>
          some (clients.goOn call (if clients.mPlugin client then .notifies client else .crashed))
      | _ => none
  | .onShutdown call =>
      match clients.calls call with
      | .notifies client =>
          some
            { (clients.remove (clients.mNodeId client)).goOn call (.clears client) with
              removed := Function.update clients.removed client true }
      | _ => none
  | .clear call =>
      match clients.calls call with
      | .clears client =>
          some
            { clients.goOn call (.completes client) with
              mPlugin := Function.update clients.mPlugin client false }
      | _ => none
  | .returns call =>
      match clients.calls call with
      | .completes client =>
          some
            { clients.goOn call .idle with
              returned := Function.update clients.returned client true }
      | _ => none

/-! ## What holds in every state -/

/-- What the state of a call says about its client. -/
def Fits (clients : Clients) : Call → Prop
  | .idle | .crashed => True
  | .transacts client | .runs client => client < clients.created
  | .shutsDown client | .notifies client => client < clients.created ∧ clients.begun client = true
  | .clears client | .completes client =>
      client < clients.created ∧ clients.begun client = true ∧ clients.removed client = true

/-- A client has the entry for its node until a call removes it. -/
structure Consistent (clients : Clients) : Prop where
  entry : ∀ {nodeId client}, clients.mClients nodeId = some client →
    client < clients.created ∧ clients.mNodeId client = nodeId ∧ clients.removed client = false
  has_entry : ∀ {client}, client < clients.created → clients.removed client = false →
    clients.mClients (clients.mNodeId client) = some client
  returned_removed : ∀ {client}, clients.returned client = true → clients.removed client = true
  removed_begun : ∀ {client}, clients.removed client = true → clients.begun client = true
  begun_created : ∀ {client}, clients.begun client = true → client < clients.created
  fits : ∀ call, clients.Fits (clients.calls call)

theorem Fits.mono {clients clients' : Clients} {call : Call} (fits : clients.Fits call)
    (created : clients.created ≤ clients'.created)
    (begun : ∀ {client}, clients.begun client = true → clients'.begun client = true)
    (removed : ∀ {client}, clients.removed client = true → clients'.removed client = true) :
    clients'.Fits call := by
  cases call with
  | idle | crashed => exact trivial
  | transacts client | runs client => exact Nat.lt_of_lt_of_le fits created
  | shutsDown client | notifies client =>
      exact ⟨Nat.lt_of_lt_of_le fits.1 created, begun fits.2⟩
  | clears client | completes client =>
      exact ⟨Nat.lt_of_lt_of_le fits.1 created, begun fits.2.1, removed fits.2.2⟩

theorem update_true {values : ClientId → Bool} {client other : ClientId}
    (holds : values other = true) : Function.update values client true other = true := by
  by_cases same : other = client
  · rw [same, Function.update_self]
  · rw [Function.update_of_ne same]
    exact holds

/-- The calls fit after one of them has gone on. -/
theorem fits_update {clients : Clients} {calls : CallId → Call} {call : CallId} {next : Call}
    (others : ∀ other, clients.Fits (calls other)) (goesOn : clients.Fits next)
    (other : CallId) : clients.Fits (Function.update calls call next other) := by
  by_cases same : other = call
  · rw [same, Function.update_self]
    exact goesOn
  · rw [Function.update_of_ne same]
    exact others other

theorem consistent_initial : Consistent initial where
  entry held := nomatch held
  has_entry created := absurd created (Nat.not_lt_zero _)
  returned_removed returned := nomatch returned
  removed_begun removed := nomatch removed
  begun_created begun := nomatch begun
  fits _ := trivial

/-- The client is created for the node that it is looked up for. -/
theorem server_id {configuration : Option Configuration} {nodeId id : UInt32}
    {scheme uri : String} (found : server configuration nodeId scheme = some (id, uri)) :
    id = nodeId := by
  cases configuration with
  | none => cases found
  | some configuration =>
      cases node : configuration.nodes nodeId with
      | none =>
          simp only [server, Option.bind_eq_bind, Option.bind_some, node, Option.bind_none] at found
          cases found
      | some node' =>
          simp only [server, Option.bind_eq_bind, Option.bind_some, node,
            Option.bind_eq_some_iff, Option.pure_def, Option.some.injEq, Prod.mk.injEq] at found
          rcases found with ⟨_, _, _, _, same, _⟩
          rw [← same]
          exact configuration.nodes_id node

/-- Nothing is removed where there is nothing. -/
theorem remove_eq_self {clients : Clients} {nodeId : UInt32}
    (without : clients.mClients nodeId = none) : clients.remove nodeId = clients := by
  rw [remove, ← without, Function.update_eq_self]

namespace Consistent

variable {clients : Clients}

theorem goOn (consistent : clients.Consistent) (call : CallId) (next : Call)
    (fits : clients.Fits next) : (clients.goOn call next).Consistent where
  entry := consistent.entry
  has_entry := consistent.has_entry
  returned_removed := consistent.returned_removed
  removed_begun := consistent.removed_begun
  begun_created := consistent.begun_created
  fits other := by
    have kept : clients.Fits (Function.update clients.calls call next other) :=
      fits_update consistent.fits fits other
    exact kept.mono (Nat.le_refl _) id id

/-- A client that is created for a node without a client gets its entry. -/
theorem connect (consistent : clients.Consistent) (reader : CallId) {nodeId : UInt32}
    (without : clients.mClients nodeId = none) :
    ((clients.connect reader nodeId).put nodeId clients.created).Consistent := by
  have fresh : clients.removed clients.created = false := by
    cases removed : clients.removed clients.created with
    | false => rfl
    | true =>
        exact absurd (consistent.begun_created (consistent.removed_begun removed))
          (Nat.lt_irrefl _)
  have older : ∀ {client}, client ≠ clients.created →
      Function.update clients.mNodeId clients.created nodeId client = clients.mNodeId client :=
    fun different => Function.update_of_ne different _ _
  have itself :
      Function.update clients.mNodeId clients.created nodeId clients.created = nodeId :=
    Function.update_self _ _ _
  constructor
  case entry =>
    intro other client held
    change Function.update clients.mClients nodeId (some clients.created) other = some client
      at held
    change client < clients.created + 1 ∧
      Function.update clients.mNodeId clients.created nodeId client = other ∧
        clients.removed client = false
    by_cases same : other = nodeId
    · rw [same, Function.update_self, Option.some.injEq] at held
      rw [← held, same]
      exact ⟨Nat.lt_succ_self _, itself, fresh⟩
    · rw [Function.update_of_ne same] at held
      rcases consistent.entry held with ⟨created, node, kept⟩
      rw [older (Nat.ne_of_lt created)]
      exact ⟨Nat.lt_succ_of_lt created, node, kept⟩
  case has_entry =>
    intro client created kept
    change Function.update clients.mClients nodeId (some clients.created)
      (Function.update clients.mNodeId clients.created nodeId client) = some client
    rcases Nat.lt_succ_iff_lt_or_eq.mp created with before | rfl
    · have held := consistent.has_entry before kept
      rw [older (Nat.ne_of_lt before), Function.update_of_ne]
      · exact held
      · intro same
        rw [same, without] at held
        cases held
    · rw [itself, Function.update_self]
  case returned_removed => exact consistent.returned_removed
  case removed_begun => exact consistent.removed_begun
  case begun_created =>
    intro client begun
    exact Nat.lt_succ_of_lt (consistent.begun_created begun)
  case fits =>
    intro call
    apply fits_update
    · intro other
      exact (consistent.fits other).mono (Nat.le_succ _) id id
    · exact Nat.lt_succ_self _

theorem lookUp (consistent : clients.Consistent) (configuration : Option Configuration)
    (call reader : CallId) (nodeId : UInt32) (scheme : String) (start : Start) :
    (clients.lookUp configuration call reader nodeId scheme start).Consistent := by
  rw [Clients.lookUp]
  cases held : clients.mClients nodeId with
  | some client => exact consistent.goOn call _ (consistent.entry held).1
  | none =>
      cases found : server configuration nodeId scheme with
      | none => exact consistent
      | some result =>
          rcases result with ⟨id, uri⟩
          cases server_id found
          cases start with
          | connects =>
              exact (consistent.connect reader held).goOn call _ (Nat.lt_succ_self clients.created)
          | fails =>
              change (clients.remove nodeId).Consistent
              rw [remove_eq_self held]
              exact consistent
          | rejects => exact consistent

/-- The client of a call that enters its shutdown. -/
theorem begin (consistent : clients.Consistent) (call : CallId) {client : ClientId}
    (created : client < clients.created) :
    { clients.goOn call (.shutsDown client) with
      begun := Function.update clients.begun client true }.Consistent := by
  have marked : { clients with begun := Function.update clients.begun client true }.Consistent := by
    constructor
    case entry => exact consistent.entry
    case has_entry => exact consistent.has_entry
    case returned_removed => exact consistent.returned_removed
    case removed_begun =>
      intro other removed
      exact update_true (consistent.removed_begun removed)
    case begun_created =>
      intro other begun
      by_cases same : other = client
      · rw [same]
        exact created
      · change Function.update clients.begun client true other = true at begun
        rw [Function.update_of_ne same] at begun
        exact consistent.begun_created begun
    case fits =>
      intro other
      exact (consistent.fits other).mono (Nat.le_refl _) update_true id
  exact marked.goOn call _ ⟨created, Function.update_self _ _ _⟩

/-- A call removes its client's entry, or the client had none and neither has its node. -/
theorem remove (consistent : clients.Consistent) (call : CallId) {client : ClientId}
    (created : client < clients.created) (begun : clients.begun client = true)
    (undisturbed : clients.removed client = true →
      clients.mClients (clients.mNodeId client) = none) :
    { (clients.remove (clients.mNodeId client)).goOn call (.clears client) with
      removed := Function.update clients.removed client true }.Consistent := by
  have marked : { clients.remove (clients.mNodeId client) with
      removed := Function.update clients.removed client true }.Consistent := by
    constructor
    case entry =>
      intro nodeId other held
      change Function.update clients.mClients (clients.mNodeId client) none nodeId = some other
        at held
      change other < clients.created ∧ clients.mNodeId other = nodeId ∧
        Function.update clients.removed client true other = false
      by_cases same : nodeId = clients.mNodeId client
      · rw [same, Function.update_self] at held
        cases held
      · rw [Function.update_of_ne same] at held
        rcases consistent.entry held with ⟨otherCreated, node, kept⟩
        refine ⟨otherCreated, node, ?_⟩
        rw [Function.update_of_ne]
        · exact kept
        · intro equal
          rw [equal] at node
          exact same node.symm
    case has_entry =>
      intro other otherCreated kept
      change Function.update clients.removed client true other = false at kept
      change Function.update clients.mClients (clients.mNodeId client) none
        (clients.mNodeId other) = some other
      have different : other ≠ client := by
        intro equal
        rw [equal, Function.update_self] at kept
        cases kept
      rw [Function.update_of_ne different] at kept
      have held := consistent.has_entry otherCreated kept
      rw [Function.update_of_ne]
      · exact held
      · intro same
        -- the entry of the node is the client's own, or there is none
        rw [same] at held
        cases removed : clients.removed client with
        | true =>
            rw [undisturbed removed] at held
            cases held
        | false =>
            rw [consistent.has_entry created removed, Option.some.injEq] at held
            exact different held.symm
    case returned_removed =>
      intro other returned
      exact update_true (consistent.returned_removed returned)
    case removed_begun =>
      intro other removed
      by_cases same : other = client
      · rw [same]
        exact begun
      · change Function.update clients.removed client true other = true at removed
        rw [Function.update_of_ne same] at removed
        exact consistent.removed_begun removed
    case begun_created => exact consistent.begun_created
    case fits =>
      intro other
      exact (consistent.fits other).mono (Nat.le_refl _) id update_true
  exact marked.goOn call _ ⟨created, begun, Function.update_self _ _ _⟩

theorem clear (consistent : clients.Consistent) (call : CallId) {client : ClientId}
    (fits : clients.Fits (.clears client)) :
    { clients.goOn call (.completes client) with
      mPlugin := Function.update clients.mPlugin client false }.Consistent := by
  have gone := consistent.goOn call (.completes client) fits
  constructor
  case entry => exact gone.entry
  case has_entry => exact gone.has_entry
  case returned_removed => exact gone.returned_removed
  case removed_begun => exact gone.removed_begun
  case begun_created => exact gone.begun_created
  case fits =>
    intro other
    exact (gone.fits other).mono (Nat.le_refl _) id id

theorem returns (consistent : clients.Consistent) (call : CallId) {client : ClientId}
    (fits : clients.Fits (.completes client)) :
    { clients.goOn call .idle with
      returned := Function.update clients.returned client true }.Consistent := by
  have gone := consistent.goOn call .idle trivial
  constructor
  case entry => exact gone.entry
  case has_entry => exact gone.has_entry
  case returned_removed =>
    intro other returned
    by_cases same : other = client
    · rw [same]
      exact fits.2.2
    · change Function.update clients.returned client true other = true at returned
      rw [Function.update_of_ne same] at returned
      exact consistent.returned_removed returned
  case removed_begun => exact gone.removed_begun
  case begun_created => exact gone.begun_created
  case fits =>
    intro other
    exact (gone.fits other).mono (Nat.le_refl _) id id

end Consistent

/-- The first removal of a client's entry may happen at any time, a later one only while
its node has no client. -/
def Undisturbed (clients : Clients) : Action → Prop
  | .onShutdown call => ∀ client, clients.calls call = .notifies client →
      clients.removed client = true → clients.mClients (clients.mNodeId client) = none
  | _ => True

theorem Consistent.step {configuration : Option Configuration} {clients clients' : Clients}
    {action : Action} (consistent : clients.Consistent)
    (taken : clients.step configuration action = some clients')
    (undisturbed : clients.Undisturbed action) : clients'.Consistent := by
  cases action with
  | transact call reader binderId scheme start =>
      rw [Clients.step] at taken
      split at taken
      · cases taken
        exact consistent.lookUp configuration call reader _ scheme start
      · cases taken
  | ends call =>
      cases state : clients.calls call <;> simp only [Clients.step, state] at taken <;> cases taken
      all_goals exact consistent.goOn call _ trivial
  | catches call =>
      have fits := consistent.fits call
      cases state : clients.calls call <;> simp only [Clients.step, state] at taken <;> cases taken
      all_goals
        rw [state] at fits
        exact consistent.begin call fits
  | dereferences call =>
      have fits := consistent.fits call
      cases state : clients.calls call <;> simp only [Clients.step, state] at taken <;> cases taken
      rename_i client
      rw [state] at fits
      apply consistent.goOn call
      split
      · exact fits
      · exact trivial
  | onShutdown call =>
      have fits := consistent.fits call
      cases state : clients.calls call <;> simp only [Clients.step, state] at taken <;> cases taken
      rename_i client
      rw [state] at fits
      exact consistent.remove call fits.1 fits.2 (undisturbed client state)
  | clear call =>
      have fits := consistent.fits call
      cases state : clients.calls call <;> simp only [Clients.step, state] at taken <;> cases taken
      rw [state] at fits
      exact consistent.clear call fits
  | returns call =>
      have fits := consistent.fits call
      cases state : clients.calls call <;> simp only [Clients.step, state] at taken <;> cases taken
      rw [state] at fits
      exact consistent.returns call fits

/-! ## Runs -/

/-- Steps of any kind. -/
def Steps (configuration : Option Configuration) (clients clients' : Clients) : Prop :=
  ∃ action, clients.step configuration action = some clients'

/-- Steps that no late removal disturbs. -/
def UndisturbedSteps (configuration : Option Configuration) (clients clients' : Clients) : Prop :=
  ∃ action, clients.step configuration action = some clients' ∧ clients.Undisturbed action

/-- The table holds no client whose shutdown has returned, and no two clients of one node
wait for their shutdown. -/
structure Orderly (clients : Clients) : Prop where
  not_returned : ∀ {nodeId client}, clients.mClients nodeId = some client →
    clients.returned client = false
  unique : ∀ {client client'}, client < clients.created → client' < clients.created →
    clients.mNodeId client = clients.mNodeId client' → clients.begun client = false →
      clients.begun client' = false → client = client'

/-- The shutdown of one client does not remove the entry of another one. -/
def KeepsOthers (clients : Clients) (action : Action) (clients' : Clients) : Prop :=
  ∀ call client, action = .onShutdown call → clients.calls call = .notifies client →
    ∀ nodeId other, clients.mClients nodeId = some other → other ≠ client →
      clients'.mClients nodeId = some other

theorem Consistent.orderly {clients : Clients} (consistent : clients.Consistent) :
    clients.Orderly where
  not_returned := by
    intro nodeId client held
    cases returned : clients.returned client with
    | false => rfl
    | true =>
        have removed := consistent.returned_removed returned
        rw [(consistent.entry held).2.2] at removed
        cases removed
  unique := by
    have held : ∀ {client}, client < clients.created → clients.begun client = false →
        clients.mClients (clients.mNodeId client) = some client := by
      intro client created waits
      apply consistent.has_entry created
      cases removed : clients.removed client with
      | false => rfl
      | true =>
          rw [consistent.removed_begun removed] at waits
          cases waits
    intro client client' created created' node waits waits'
    have first := held created waits
    rw [node, held created' waits', Option.some.injEq] at first
    exact first.symm

/-- A removal takes the entry of another client exactly when it is a late one. -/
theorem Consistent.keepsOthers_iff {configuration : Option Configuration}
    {clients clients' : Clients} {action : Action} (consistent : clients.Consistent)
    (taken : clients.step configuration action = some clients') :
    clients.KeepsOthers action clients' ↔ clients.Undisturbed action := by
  cases action with
  | onShutdown call =>
      have fits := consistent.fits call
      cases state : clients.calls call <;> simp only [Clients.step, state] at taken <;> cases taken
      rename_i client
      rw [state] at fits
      constructor
      · intro keeps shutDown notifies removed
        cases state.symm.trans notifies
        cases held : clients.mClients (clients.mNodeId client) with
        | none => rfl
        | some other =>
            have different : other ≠ client := by
              intro same
              rw [same] at held
              rw [(consistent.entry held).2.2] at removed
              cases removed
            have kept := keeps call client rfl state _ _ held different
            change Function.update clients.mClients (clients.mNodeId client) none
              (clients.mNodeId client) = some other at kept
            rw [Function.update_self] at kept
            cases kept
      · intro undisturbed call' shutDown same notifies nodeId other held different
        cases same
        cases state.symm.trans notifies
        change Function.update clients.mClients (clients.mNodeId client) none nodeId = some other
        rw [Function.update_of_ne]
        · exact held
        · intro node
          rw [node] at held
          cases removed : clients.removed client with
          | true =>
              rw [undisturbed client state removed] at held
              cases held
          | false =>
              rw [consistent.has_entry fits.1 removed, Option.some.injEq] at held
              exact different held.symm
  | transact | ends | catches | dereferences | clear | returns =>
      constructor
      · intro _
        exact trivial
      · intro _ call client impossible
        cases impossible

/-- As long as no late removal finds another client, the table is in order; and that is
when the shutdown of one client leaves the entries of the others alone. -/
theorem reachable_orderly (configuration : Option Configuration) {clients : Clients}
    (reachable : Reachable (· = initial) (UndisturbedSteps configuration) clients) :
    clients.Orderly ∧ ∀ action clients', clients.step configuration action = some clients' →
      (clients.KeepsOthers action clients' ↔ clients.Undisturbed action) := by
  have consistent : clients.Consistent := by
    apply reachable.invariant
    · intro start starts
      rw [starts]
      exact consistent_initial
    · intro before after _ held taken
      rcases taken with ⟨action, steps, undisturbed⟩
      exact held.step steps undisturbed
  exact ⟨consistent.orderly, fun action clients' taken => consistent.keepsOthers_iff taken⟩

/-- One node with a server. -/
def oneNode : Configuration where
  nodes nodeId :=
    if nodeId = 1 then
      some { id := 1, plugins := fun _ => some (some "tcp://localhost:1234") }
    else
      none
  nodes_id := by
    intro nodeId node found
    split at found
    · rename_i same
      cases found
      exact same.symm
    · cases found

/-- A binder of that node. -/
def binderId : UInt64 := 0x100000000

/-- The reader and a sender both shut the first client down; one of them removes it, and a
third thread replaces it. -/
def replaced : List Action :=
  [.transact 0 1 binderId "mindroid" .connects, .catches 1, .catches 0, .dereferences 1,
    .dereferences 0, .onShutdown 1, .transact 2 3 binderId "mindroid" .connects]

/-- The other call removes the new client, and a third client is created. -/
def lost : List Action :=
  [.onShutdown 0, .transact 4 5 binderId "mindroid" .connects]

/-- The shutdown of the first client takes the entry of the second one, and then there are
two clients for the node. -/
theorem lateRemoval_takes_entry :
    (∃ clients clients' action, Reachable (· = initial) (Steps (some oneNode)) clients ∧
      clients.step (some oneNode) action = some clients' ∧
      ¬clients.KeepsOthers action clients') ∧
      ∃ clients, Reachable (· = initial) (Steps (some oneNode)) clients ∧ ¬clients.Orderly := by
  have first : ∃ clients, runAll (step (some oneNode)) initial replaced = some clients ∧
      clients.mClients 1 = some 1 ∧ clients.calls 0 = .notifies 0 ∧
      ∃ clients', clients.step (some oneNode) (.onShutdown 0) = some clients' ∧
        clients'.mClients 1 = none :=
    ⟨_, rfl, rfl, rfl, _, rfl, rfl⟩
  have second : ∃ clients, runAll (step (some oneNode)) initial (replaced ++ lost) = some clients ∧
      2 < clients.created ∧ clients.mNodeId 1 = clients.mNodeId 2 ∧
      clients.begun 1 = false ∧ clients.begun 2 = false :=
    ⟨_, rfl, by decide, rfl, rfl, rfl⟩
  constructor
  · rcases first with ⟨clients, runs, held, notifies, clients', taken, gone⟩
    refine ⟨clients, clients', .onShutdown 0, Reachable.runAll (.initial rfl) runs, taken, ?_⟩
    intro keeps
    rw [keeps 0 0 rfl notifies 1 1 held (by decide)] at gone
    cases gone
  · rcases second with ⟨clients, runs, created, node, waits, waits'⟩
    refine ⟨clients, Reachable.runAll (.initial rfl) runs, ?_⟩
    intro orderly
    have same := orderly.unique (Nat.lt_trans (by decide) created) created node waits waits'
    cases same

/-- A client that its reader alone shuts down leaves an orderly table. -/
theorem readerShutdown_orderly :
    ∃ clients, runAll (step (some oneNode)) initial
        [.transact 0 1 binderId "mindroid" .connects, .ends 0, .catches 1, .dereferences 1,
          .onShutdown 1, .clear 1, .returns 1] = some clients ∧
      clients.Orderly ∧ ∀ action clients', clients.step (some oneNode) action = some clients' →
        (clients.KeepsOthers action clients' ↔ clients.Undisturbed action) := by
  refine ⟨_, rfl, reachable_orderly (some oneNode) ?_⟩
  have first : Reachable (· = initial) (UndisturbedSteps (some oneNode)) initial := .initial rfl
  have connected := first.step ⟨.transact 0 1 binderId "mindroid" .connects, rfl, trivial⟩
  have sent := connected.step ⟨.ends 0, rfl, trivial⟩
  have caught := sent.step ⟨.catches 1, rfl, trivial⟩
  have notifies := caught.step ⟨.dereferences 1, rfl, trivial⟩
  have removed := notifies.step ⟨.onShutdown 1, rfl, fun client state late => by
    cases state
    cases late⟩
  have cleared := removed.step ⟨.clear 1, rfl, trivial⟩
  exact cleared.step ⟨.returns 1, rfl, trivial⟩

end Clients

end Plugin

end Mindroid
