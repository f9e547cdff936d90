import Mindroid.Runtime.System.Registry

/-!
# Lookups and later registrations

A lookup should leave no trace in the tables.  One that misses can enter a null pointer, which
later keeps a binder from being entered.  The tables are clean if no such entry is in the way.
-/

set_option autoImplicit false

namespace Mindroid

/-- Every URI object was parsed from some text. -/
def URI.IsParsed (uri : URI) : Prop :=
  ∃ text, URI.new text = .ok uri

/-- The text of an address with a scheme and an authority. -/
def URI.addressOf (scheme authority : List UInt8) : List UInt8 :=
  String.cStr scheme ++ String.valueOf "://" ++ String.cStr authority

namespace Runtime

variable {β : Type} (runtime : Runtime β)

/-- The live binder that is entered under a URI. -/
def holder (key : List UInt8) : Option β :=
  (runtime.mBinderUris key).bind fun entry => entry.filter runtime.alive

/-- There is no entry, or it holds a live binder. -/
def Settled (entry : Option (Option β)) : Prop :=
  entry = none ∨ (entry.bind fun entry => entry.filter runtime.alive).isSome

theorem not_settled_null : ¬runtime.Settled (some none) := by
  rintro (absent | held)
  · cases absent
  · cases held

theorem settled_some {binder : β} (isAlive : runtime.alive binder = true) :
    runtime.Settled (some (some binder)) := by
  rw [Settled, Option.bind_some, Option.filter_some, if_pos isAlive]
  exact .inr rfl

theorem alive_of_settled {binder : β} (settled : runtime.Settled (some (some binder))) :
    runtime.alive binder = true := by
  rcases settled with absent | held
  · cases absent
  · rw [Option.bind_some, Option.filter_some] at held
    by_contra dead
    rw [if_neg dead] at held
    cases held

theorem holder_eq_some {key : List UInt8} {binder : β} :
    runtime.holder key = some binder ↔
      runtime.mBinderUris key = some (some binder) ∧ runtime.alive binder = true := by
  rw [holder, Option.bind_eq_some_iff]
  constructor
  · rintro ⟨entry, entered, kept⟩
    rw [Option.filter_eq_some_iff] at kept
    exact ⟨entered.trans (congrArg some kept.1), kept.2⟩
  · intro held
    exact ⟨some binder, held.1, Option.filter_eq_some_iff.mpr ⟨rfl, held.2⟩⟩

/-- A URI of the own node. -/
def IsOwn (uri : URI) : Prop :=
  ∃ node id value, partsOf uri = .ok [node, id] ∧ numberIn uri node = .ok value ∧
    runtime.mNodeId = value.toUInt32

/-- A URI of the own node that has only a scheme and an authority. -/
structure IsAddress (uri : URI) : Prop where
  parsed : uri.IsParsed
  own : runtime.IsOwn uri
  whole : address uri = .ok uri.mString

/-- The table after `getStub`. -/
def urisWithStub (uris : List UInt8 → Option (Option β)) (key scheme : List UInt8) (binder : β) :
    List UInt8 → Option (Option β) :=
  match (runtime.mPlugins scheme).bind fun plugin => plugin.getStub binder with
  | none => uris
  | some stub => Function.update uris key (some (some stub))

/-- The table of URIs after a lookup of a URI of the own node. -/
def urisAfter (scheme authority : List UInt8) : List UInt8 → Option (Option β) :=
  let key := URI.addressOf scheme authority
  let other := URI.addressOf MINDROID_SCHEME authority
  let dropped := Function.update runtime.mBinderUris key none
  if (runtime.holder key).isSome then
    runtime.mBinderUris
  else if String.equals MINDROID_SCHEME scheme then
    dropped
  else
    match runtime.mBinderUris other, runtime.holder other with
    | none, _ => Function.update dropped other (some none)
    | some _, none => dropped
    | some _, some binder => runtime.urisWithStub dropped key scheme binder

variable {runtime} in
theorem IsAddress.of_node {next : Runtime β} {uri : URI} (isAddress : runtime.IsAddress uri)
    (same : next.mNodeId = runtime.mNodeId) : next.IsAddress uri := by
  rcases isAddress.own with ⟨node, id, value, parts, number, own⟩
  exact ⟨isAddress.parsed, ⟨node, id, value, parts, number, same.trans own⟩, isAddress.whole⟩

theorem lookUp_fst (key : List UInt8) : (runtime.lookUp key).1 = runtime.holder key := by
  rw [lookUp, holder]
  cases runtime.mBinderUris key with
  | none => rfl
  | some entry => rfl

/-- A lookup that misses leaves no entry once the key has been removed. -/
theorem removeUri_lookUp (key : List UInt8) :
    (runtime.lookUp key).2.removeUri key = runtime.removeUri key := by
  rw [lookUp]
  cases runtime.mBinderUris key with
  | some entry => rfl
  | none =>
      dsimp only [removeUri]
      rw [Function.update_idem]

theorem lookUp_of_absent {key : List UInt8} (absent : runtime.mBinderUris key = none) :
    runtime.lookUp key = (none,
      { runtime with mBinderUris := Function.update runtime.mBinderUris key (some none) }) := by
  rw [lookUp, absent]

theorem lookUp_of_present {key : List UInt8} {entry : Option β}
    (present : runtime.mBinderUris key = some entry) :
    runtime.lookUp key = (entry.filter runtime.alive, runtime) := by
  rw [lookUp, present]

theorem lookUp_of_holder {key : List UInt8} {binder : β} (held : runtime.holder key = some binder) :
    runtime.lookUp key = (some binder, runtime) := by
  rw [holder] at held
  cases entered : runtime.mBinderUris key with
  | none =>
      rw [entered] at held
      cases held
  | some entry =>
      rw [entered] at held
      rw [runtime.lookUp_of_present entered]
      exact congrArg (·, runtime) held

theorem lookUp_of_missing {key : List UInt8} (missing : runtime.holder key = none) :
    runtime.lookUp key = (none, (runtime.lookUp key).2) :=
  Prod.ext ((runtime.lookUp_fst key).trans missing) rfl

theorem stubFor_snd (key scheme : List UInt8) (binder : β) :
    (runtime.stubFor key scheme binder).2 =
      { runtime with
        mBinderUris := runtime.urisWithStub runtime.mBinderUris key scheme binder } := by
  rw [stubFor, urisWithStub]
  cases runtime.mPlugins scheme with
  | none => rfl
  | some plugin =>
      dsimp only [Option.bind_some]
      cases plugin.getStub binder with
      | none => rfl
      | some stub => rfl

theorem addressOf_ne {scheme authority : List UInt8}
    (different : String.equals MINDROID_SCHEME scheme = false) :
    URI.addressOf MINDROID_SCHEME authority ≠ URI.addressOf scheme authority := by
  intro same
  rw [URI.addressOf, URI.addressOf] at same
  have schemes := List.append_cancel_right (List.append_cancel_right same)
  rw [String.equals, schemes, beq_self_eq_true] at different
  cases different

/-- What a lookup of a URI of the own node does to the table. -/
inductive Looked (scheme authority : List UInt8) : (List UInt8 → Option (Option β)) → Prop where
  | found : Looked scheme authority runtime.mBinderUris
  | dropped (missing : runtime.holder (URI.addressOf scheme authority) = none) :
      Looked scheme authority
        (Function.update runtime.mBinderUris (URI.addressOf scheme authority) none)
  | stub {plugin : Plugin β} {binder stub : β}
      (missing : runtime.holder (URI.addressOf scheme authority) = none)
      (foreign : String.equals MINDROID_SCHEME scheme = false)
      (plugged : runtime.mPlugins scheme = some plugin)
      (held : runtime.holder (URI.addressOf MINDROID_SCHEME authority) = some binder)
      (stubbed : plugin.getStub binder = some stub) :
      Looked scheme authority
        (Function.update runtime.mBinderUris (URI.addressOf scheme authority) (some (some stub)))
  | null (missing : runtime.holder (URI.addressOf scheme authority) = none)
      (foreign : String.equals MINDROID_SCHEME scheme = false)
      (absent : runtime.mBinderUris (URI.addressOf MINDROID_SCHEME authority) = none) :
      Looked scheme authority
        (Function.update
          (Function.update runtime.mBinderUris (URI.addressOf scheme authority) none)
          (URI.addressOf MINDROID_SCHEME authority) (some none))

theorem urisAfter_looked (scheme authority : List UInt8) :
    runtime.Looked scheme authority (runtime.urisAfter scheme authority) := by
  rw [urisAfter]
  cases missing : runtime.holder (URI.addressOf scheme authority) with
  | some binder => exact .found
  | none =>
      cases foreign : String.equals MINDROID_SCHEME scheme with
      | true => exact .dropped missing
      | false =>
          simp only [Option.isSome_none, Bool.false_eq_true, if_false]
          cases absent : runtime.mBinderUris (URI.addressOf MINDROID_SCHEME authority) with
          | none => exact .null missing foreign absent
          | some entry =>
              cases held : runtime.holder (URI.addressOf MINDROID_SCHEME authority) with
              | none => exact .dropped missing
              | some binder =>
                  dsimp only [urisWithStub]
                  cases plugged : runtime.mPlugins scheme with
                  | none => exact .dropped missing
                  | some plugin =>
                      dsimp only [Option.bind_some]
                      cases stubbed : plugin.getStub binder with
                      | none => exact .dropped missing
                      | some stub =>
                          dsimp only
                          rw [Function.update_idem]
                          exact .stub missing foreign plugged held stubbed

theorem urisAfter_null {scheme authority : List UInt8}
    (missing : runtime.holder (URI.addressOf scheme authority) = none)
    (foreign : String.equals MINDROID_SCHEME scheme = false)
    (absent : runtime.mBinderUris (URI.addressOf MINDROID_SCHEME authority) = none) :
    runtime.urisAfter scheme authority (URI.addressOf MINDROID_SCHEME authority) = some none := by
  rw [urisAfter]
  simp only [missing, foreign, absent, Option.isSome_none, Bool.false_eq_true, if_false]
  exact Function.update_self _ _ _

theorem urisAfter_stub {scheme authority : List UInt8} {plugin : Plugin β} {binder stub : β}
    (missing : runtime.holder (URI.addressOf scheme authority) = none)
    (foreign : String.equals MINDROID_SCHEME scheme = false)
    (plugged : runtime.mPlugins scheme = some plugin)
    (held : runtime.holder (URI.addressOf MINDROID_SCHEME authority) = some binder)
    (stubbed : plugin.getStub binder = some stub) :
    runtime.urisAfter scheme authority (URI.addressOf scheme authority) = some (some stub) := by
  have entered := (runtime.holder_eq_some.mp held).1
  rw [urisAfter]
  simp only [missing, foreign, entered, held, Option.isSome_none, Bool.false_eq_true, if_false]
  rw [urisWithStub, plugged, Option.bind_some, stubbed]
  exact Function.update_self _ _ _

/-- A lookup keeps the entry of a live binder. -/
theorem Looked.keeps {scheme authority other : List UInt8} {uris : List UInt8 → Option (Option β)}
    {binder : β} (looked : runtime.Looked scheme authority uris)
    (held : runtime.holder other = some binder) : uris other = runtime.mBinderUris other := by
  have apart : runtime.holder (URI.addressOf scheme authority) = none →
      other ≠ URI.addressOf scheme authority := by
    rintro missing rfl
    rw [held] at missing
    cases missing
  cases looked with
  | found => rfl
  | dropped missing => exact Function.update_of_ne (apart missing) _ _
  | stub missing => exact Function.update_of_ne (apart missing) _ _
  | null missing _ absent =>
      have notNull : other ≠ URI.addressOf MINDROID_SCHEME authority := by
        rintro rfl
        rw [holder, absent] at held
        cases held
      rw [Function.update_of_ne notNull, Function.update_of_ne (apart missing)]

theorem getOwnBinder_eq {uri : URI} {scheme authority : List UInt8}
    (schemed : uri.mScheme = some scheme) (authorized : uri.mAuthority = some authority) :
    ∃ binder, runtime.getOwnBinder uri = .ok (binder,
      { runtime with mBinderUris := runtime.urisAfter scheme authority }) := by
  have addressed : address uri = .ok (URI.addressOf scheme authority) := by
    rw [address, schemed, authorized]
    rfl
  have separator : MINDROID_SCHEME_WITH_SEPARATOR ++ String.cStr authority =
      URI.addressOf MINDROID_SCHEME authority := rfl
  rw [getOwnBinder, addressed, schemed, authorized]
  simp only [bind, Except.bind, separator]
  rw [urisAfter]
  cases held : runtime.holder (URI.addressOf scheme authority) with
  | some binder =>
      rw [runtime.lookUp_of_holder held]
      exact ⟨_, rfl⟩
  | none =>
      rw [runtime.lookUp_of_missing held]
      dsimp only
      rw [removeUri_lookUp]
      cases native : String.equals MINDROID_SCHEME scheme with
      | true => exact ⟨_, rfl⟩
      | false =>
          have apart : URI.addressOf MINDROID_SCHEME authority ≠ URI.addressOf scheme authority :=
            addressOf_ne native
          let removed := runtime.removeUri (URI.addressOf scheme authority)
          have same : removed.mBinderUris (URI.addressOf MINDROID_SCHEME authority) =
              runtime.mBinderUris (URI.addressOf MINDROID_SCHEME authority) :=
            Function.update_of_ne apart _ _
          cases entered : runtime.mBinderUris (URI.addressOf MINDROID_SCHEME authority) with
          | none =>
              rw [removed.lookUp_of_absent (same.trans entered)]
              exact ⟨_, rfl⟩
          | some entry =>
              rw [removed.lookUp_of_present (same.trans entered)]
              have filtered : entry.filter removed.alive =
                  runtime.holder (URI.addressOf MINDROID_SCHEME authority) := by
                rw [holder, entered]
                rfl
              rw [filtered]
              cases runtime.holder (URI.addressOf MINDROID_SCHEME authority) with
              | none => exact ⟨_, rfl⟩
              | some binder =>
                  dsimp only
                  exact ⟨_, congrArg Except.ok
                    (Prod.ext rfl (removed.stubFor_snd _ scheme binder))⟩

theorem getBinder_of_own {uri : URI} (own : runtime.IsOwn uri) :
    runtime.getBinder (some uri) = runtime.getOwnBinder uri := by
  rcases own with ⟨node, id, value, parts, number, same⟩
  rw [getBinder, parts]
  simp only [bind, Except.bind, number]
  exact if_pos same

/-- The lookup of a binder of another node counts proxies. -/
theorem getBinder_of_other {uri : URI} (other : ¬runtime.IsOwn uri) :
    (∃ failure, runtime.getBinder (some uri) = .error failure) ∨
      ∃ binder count, runtime.getBinder (some uri) =
        .ok (binder, { runtime with mProxyIdGenerator := count }) := by
  rw [getBinder]
  cases parts : partsOf uri with
  | error failure => exact .inl ⟨failure, rfl⟩
  | ok found =>
      rcases found with _ | ⟨node, _ | ⟨id, _ | ⟨more, rest⟩⟩⟩
      · exact .inl ⟨_, rfl⟩
      · exact .inl ⟨_, rfl⟩
      · simp only [bind, Except.bind]
        cases number : numberIn uri node with
        | error failure => exact .inl ⟨failure, rfl⟩
        | ok value =>
            dsimp only
            rw [if_neg fun same => other ⟨node, id, value, parts, number, same⟩]
            cases created : runtime.createProxy uri with
            | error failure => exact .inl ⟨failure, rfl⟩
            | ok pair =>
                rw [createProxy] at created
                simp only [bind, Except.bind] at created
                split at created
                case h_1 => cases created
                case h_2 =>
                  split at created
                  · cases created
                  · cases created
                    exact .inr ⟨_, _, rfl⟩
      · exact .inl ⟨_, rfl⟩

end Runtime

namespace Registry

variable (registry : Registry)

/-- A lookup of a binder by its id or by a URI, which may be null. -/
inductive Lookup where
  | byId (id : UInt64)
  | byUri (uri : Option { uri : URI // uri.IsParsed })

/-- What a lookup leaves behind. -/
def lookUpOnce : Lookup → Registry
  | .byId id => (registry.getBinderById id).2
  | .byUri uri => (registry.getBinderByUri (uri.map Subtype.val)).2

def afterLookups (lookups : List Lookup) : Registry :=
  lookups.foldl lookUpOnce registry

/-- A binder that is attached under an id or URI that no live binder holds is entered there, and
found from then on. -/
structure Registers : Prop where
  byId : ∀ (count : Int32) (binder : Nat) (object : Binder) (id : UInt64) (attached : Registry),
    { registry.withBinder binder object with mBinderIdGenerator := count }.attachBinder binder =
      some (id, attached) →
    (registry.withBinder binder object).idHolder id = none →
    attached.mBinderIds id = some (some binder) ∧
      ∀ lookups, ((attached.afterLookups lookups).getBinderById id).1 = some binder
  byUri : ∀ (uri : URI) (binder : Nat) (object : Binder), registry.IsAddress uri →
    object.mUri.isSome → (registry.withBinder binder object).holder uri.mString = none →
    ∃ attached, (registry.withBinder binder object).attachUri uri binder = .ok attached ∧
      attached.mBinderUris uri.mString = some (some binder) ∧
      ∀ lookups, ((attached.afterLookups lookups).getBinderByUri (some uri)).1 =
        .ok (some (.binder binder))

/-- No null or dead entry is in the way of a binder. -/
structure Clean : Prop where
  byId : ∀ count, registry.mIds (registry.countedId count) = false →
    registry.Settled (registry.mBinderIds (registry.countedId count))
  byUri : ∀ uri, registry.IsAddress uri → registry.Settled (registry.mBinderUris uri.mString)

/-- A lookup by an id of the own node needs an entry or a used id.  One by a URI of the own node
with another scheme needs a binder, or an entry for the scheme of the runtime; the stub of a
plugin is alive. -/
def Harmless : Lookup → Prop
  | .byId id =>
      let nodeId := (id >>> 32).toUInt32
      let key := registry.mNodeId.toUInt64 <<< 32 ||| id
      (nodeId = 0 ∨ registry.mNodeId = nodeId) →
        registry.mIds key = true ∨ (registry.mBinderIds key).isSome
  | .byUri none => True
  | .byUri (some uri) =>
      registry.IsOwn uri.val → ∀ scheme authority, uri.val.mScheme = some scheme →
        uri.val.mAuthority = some authority →
        registry.holder (URI.addressOf scheme authority) = none →
        String.equals Runtime.MINDROID_SCHEME scheme = false →
        (registry.mBinderUris (URI.addressOf Runtime.MINDROID_SCHEME authority)).isSome ∧
          ∀ plugin binder stub, registry.mPlugins scheme = some plugin →
            registry.holder (URI.addressOf Runtime.MINDROID_SCHEME authority) = some binder →
            plugin.getStub binder = some stub → registry.alive stub = true

/-! ## What a lookup leaves behind -/

theorem lookUpOnce_byId {id : UInt64}
    (own : (id >>> 32).toUInt32 = 0 ∨ registry.mNodeId = (id >>> 32).toUInt32)
    (absent : registry.mBinderIds (registry.mNodeId.toUInt64 <<< 32 ||| id) = none) :
    registry.lookUpOnce (.byId id) =
      { registry with
        mBinderIds := Function.update registry.mBinderIds
          (registry.mNodeId.toUInt64 <<< 32 ||| id) (some none) } := by
  rw [lookUpOnce, getBinderById]
  dsimp only
  rw [if_pos own, absent]

theorem lookUpOnce_byId_same {id : UInt64}
    (harmless : ((id >>> 32).toUInt32 = 0 ∨ registry.mNodeId = (id >>> 32).toUInt32) →
      registry.mBinderIds (registry.mNodeId.toUInt64 <<< 32 ||| id) ≠ none) :
    registry.lookUpOnce (.byId id) = registry := by
  rw [lookUpOnce, getBinderById]
  dsimp only
  split
  case isTrue own =>
    rcases Option.ne_none_iff_exists'.mp (harmless own) with ⟨entry, entered⟩
    rw [entered]
  case isFalse => rfl

section ByUri

variable {uri : URI} (parsed : uri.IsParsed)

theorem lookUpOnce_other (other : ¬registry.IsOwn uri) :
    ∃ count, registry.lookUpOnce (.byUri (some ⟨uri, parsed⟩)) =
      { registry with mProxyIdGenerator := count } := by
  rw [lookUpOnce, Option.map_some, getBinderByUri]
  rcases registry.getBinder_of_other other with ⟨failure, throws⟩ | ⟨binder, count, returns⟩
  · rw [throws]
    exact ⟨_, rfl⟩
  · rw [returns]
    exact ⟨count, rfl⟩

theorem lookUpOnce_own {scheme authority : List UInt8} (own : registry.IsOwn uri)
    (schemed : uri.mScheme = some scheme) (authorized : uri.mAuthority = some authority) :
    registry.lookUpOnce (.byUri (some ⟨uri, parsed⟩)) =
      { registry with mBinderUris := registry.urisAfter scheme authority } := by
  rcases registry.getOwnBinder_eq schemed authorized with ⟨binder, found⟩
  rw [lookUpOnce, Option.map_some, getBinderByUri, registry.getBinder_of_own own, found]

theorem lookUpOnce_noScheme (own : registry.IsOwn uri) (noScheme : uri.mScheme = none) :
    registry.lookUpOnce (.byUri (some ⟨uri, parsed⟩)) = registry := by
  have throws : Runtime.address uri = .error .nullPointer := by
    rw [Runtime.address, noScheme]
  rw [lookUpOnce, Option.map_some, getBinderByUri, registry.getBinder_of_own own,
    Runtime.getOwnBinder, throws]
  rfl

theorem authority_of_own (own : registry.IsOwn uri) : ∃ authority, uri.mAuthority = some authority := by
  rcases own with ⟨node, id, value, parts, _⟩
  rw [Runtime.partsOf] at parts
  cases authorized : uri.mAuthority with
  | none =>
      rw [authorized] at parts
      cases parts
  | some authority => exact ⟨authority, rfl⟩

end ByUri

/-- What a lookup does to the tables. -/
theorem lookUpOnce_cases (lookup : Lookup) :
    (∃ count, registry.lookUpOnce lookup = { registry with mProxyIdGenerator := count }) ∨
    (∃ id, lookup = .byId id ∧
      ((id >>> 32).toUInt32 = 0 ∨ registry.mNodeId = (id >>> 32).toUInt32) ∧
      registry.mBinderIds (registry.mNodeId.toUInt64 <<< 32 ||| id) = none ∧
      registry.lookUpOnce lookup =
        { registry with
          mBinderIds := Function.update registry.mBinderIds
            (registry.mNodeId.toUInt64 <<< 32 ||| id) (some none) }) ∨
    ∃ uri scheme authority, lookup = .byUri (some uri) ∧ registry.IsOwn uri.val ∧
      uri.val.mScheme = some scheme ∧ uri.val.mAuthority = some authority ∧
      registry.lookUpOnce lookup =
        { registry with mBinderUris := registry.urisAfter scheme authority } := by
  cases lookup with
  | byId id =>
      by_cases adds : ((id >>> 32).toUInt32 = 0 ∨ registry.mNodeId = (id >>> 32).toUInt32) ∧
          registry.mBinderIds (registry.mNodeId.toUInt64 <<< 32 ||| id) = none
      · exact .inr (.inl ⟨id, rfl, adds.1, adds.2, registry.lookUpOnce_byId adds.1 adds.2⟩)
      · exact .inl ⟨registry.mProxyIdGenerator,
          registry.lookUpOnce_byId_same fun own absent => adds ⟨own, absent⟩⟩
  | byUri uri =>
      cases uri with
      | none => exact .inl ⟨registry.mProxyIdGenerator, rfl⟩
      | some uri =>
          by_cases own : registry.IsOwn uri.val
          · rcases registry.authority_of_own own with ⟨authority, authorized⟩
            cases schemed : uri.val.mScheme with
            | none => exact .inl ⟨registry.mProxyIdGenerator,
                registry.lookUpOnce_noScheme uri.property own schemed⟩
            | some scheme => exact .inr (.inr ⟨uri, scheme, authority, rfl, own, schemed, authorized,
                registry.lookUpOnce_own uri.property own schemed authorized⟩)
          · exact .inl (registry.lookUpOnce_other uri.property own)

/-- The live binders of a registry are found in another one. -/
structure Keeps (registry next : Registry) : Prop where
  node : next.mNodeId = registry.mNodeId
  byId : ∀ id binder, registry.idHolder id = some binder → next.idHolder id = some binder
  byUri : ∀ key binder, registry.holder key = some binder → next.holder key = some binder

theorem lookUpOnce_keeps (lookup : Lookup) : Keeps registry (registry.lookUpOnce lookup) := by
  rcases registry.lookUpOnce_cases lookup with ⟨count, looked⟩ | ⟨id, _, _, absent, looked⟩ |
    ⟨uri, scheme, authority, _, _, _, _, looked⟩
  · rw [looked]
    exact ⟨rfl, fun _ _ held => held, fun _ _ held => held⟩
  · rw [looked]
    refine ⟨rfl, ?_, fun _ _ held => held⟩
    intro other binder held
    have apart : other ≠ registry.mNodeId.toUInt64 <<< 32 ||| id := by
      rintro rfl
      rw [idHolder, absent] at held
      cases held
    rw [idHolder] at held ⊢
    dsimp only
    rw [Function.update_of_ne apart]
    exact held
  · rw [looked]
    refine ⟨rfl, fun _ _ held => held, ?_⟩
    intro key binder held
    have same := (registry.urisAfter_looked scheme authority).keeps registry.toRuntime held
    rw [Runtime.holder] at held ⊢
    dsimp only
    rw [same]
    exact held

theorem afterLookups_keeps (lookups : List Lookup) :
    Keeps registry (registry.afterLookups lookups) := by
  induction lookups generalizing registry with
  | nil => exact ⟨rfl, fun _ _ held => held, fun _ _ held => held⟩
  | cons lookup lookups ih =>
      have first := registry.lookUpOnce_keeps lookup
      have later := ih (registry.lookUpOnce lookup)
      exact ⟨later.node.trans first.node,
        fun id binder held => later.byId id binder (first.byId id binder held),
        fun key binder held => later.byUri key binder (first.byUri key binder held)⟩

/-! ## Registration in clean tables -/

theorem Keeps.found {registry next : Registry} (keeps : Keeps registry next) {node : Registry}
    (same : registry.mNodeId = node.mNodeId) {low : Int32} {binder : Nat}
    (held : registry.idHolder (node.countedId low) = some binder) :
    (next.getBinderById (node.countedId low)).1 = some binder := by
  have ids : next.countedId low = node.countedId low := by
    rw [countedId, countedId, ownId, ownId, keeps.node, same]
  rw [← ids] at held ⊢
  rw [countedId, getBinderById_ownId]
  exact keeps.byId _ _ held

/-- An address of the own node names the binder that is entered under its text. -/
theorem getBinderByUri_address {uri : URI} (isAddress : registry.IsAddress uri) {binder : Nat}
    (held : registry.holder uri.mString = some binder) :
    (registry.getBinderByUri (some uri)).1 = .ok (some (.binder binder)) := by
  have whole := isAddress.whole
  rw [getBinderByUri, registry.getBinder_of_own isAddress.own, Runtime.getOwnBinder, whole]
  rw [Runtime.address] at whole
  split at whole
  case h_1 =>
    simp only [bind, Except.bind]
    rw [registry.lookUp_of_holder held]
    rfl
  case h_2 => cases whole

theorem update_alive {alive : Nat → Bool} {binder other : Nat} (isAlive : alive other = true) :
    Function.update alive binder true other = true := by
  by_cases same : other = binder
  · rw [same, Function.update_self]
  · rw [Function.update_of_ne same, isAlive]

theorem withBinder_keeps (binder : Nat) (object : Binder) :
    Keeps registry (registry.withBinder binder object) where
  node := rfl
  byId := by
    intro id other held
    rw [idHolder_eq_some] at held ⊢
    exact ⟨held.1, update_alive held.2⟩
  byUri := by
    intro key other held
    rw [Runtime.holder_eq_some] at held ⊢
    exact ⟨held.1, update_alive held.2⟩

theorem Clean.registers {registry : Registry} (clean : registry.Clean) : registry.Registers where
  byId := by
    intro count binder object id attached attaches free
    rcases attachBinder_cases _ attaches with ⟨steps, next, first, rfl, rfl⟩
    let low := count + Int32.ofNat steps
    have unused : registry.mIds (registry.countedId low) = false := first.unused
    have absent : registry.mBinderIds (registry.countedId low) = none := by
      refine (clean.byId low unused).resolve_right fun held => ?_
      rcases Option.isSome_iff_exists.mp held with ⟨other, held⟩
      have taken := (registry.withBinder_keeps binder object).byId _ other held
      exact absurd (free.symm.trans taken) (Option.some_ne_none other).symm
    let constructed := { registry.withBinder binder object with mBinderIdGenerator := next }
    have absentThere : constructed.mBinderIds (registry.countedId low) = none := absent
    have enters := constructed.enterId_of_absent absentThere binder
    have entered : (constructed.enterId (registry.countedId low) binder).idHolder
        (registry.countedId low) = some binder := by
      rw [enters, idHolder_eq_some]
      exact ⟨Function.update_self _ _ _, Function.update_self _ _ _⟩
    have node : (constructed.enterId (registry.countedId low) binder).mNodeId =
        registry.mNodeId := by
      rw [enters]
      rfl
    refine ⟨((idHolder_eq_some _).mp entered).1, fun lookups => ?_⟩
    exact (afterLookups_keeps _ lookups).found node entered
  byUri := by
    intro uri binder object isAddress hasUri free
    let constructed := registry.withBinder binder object
    have absent : registry.mBinderUris uri.mString = none := by
      refine (clean.byUri uri isAddress).resolve_right fun held => ?_
      rcases Option.isSome_iff_exists.mp held with ⟨other, held⟩
      have taken := (registry.withBinder_keeps binder object).byUri _ other held
      exact absurd (free.symm.trans taken) (Option.some_ne_none other).symm
    have named : (constructed.uriOf binder).isSome := by
      have same : constructed.binders binder = object := Function.update_self _ _ _
      rw [uriOf, Option.isSome_map, same]
      exact hasUri
    let attached := { constructed with
      mBinderUris := Function.update constructed.mBinderUris uri.mString (some (some binder)) }
    refine ⟨attached, constructed.attachUri_of_absent named absent, Function.update_self _ _ _,
      fun lookups => ?_⟩
    apply getBinderByUri_address
    · exact isAddress.of_node (afterLookups_keeps _ lookups).node
    · apply (afterLookups_keeps _ lookups).byUri
      rw [Runtime.holder_eq_some]
      exact ⟨Function.update_self _ _ _, Function.update_self _ _ _⟩

/-! ## The exact condition -/

/-- There is an address of the own node with the authority of any other URI of it. -/
theorem exists_isAddress {uri : URI} (parsed : uri.IsParsed) (own : registry.IsOwn uri)
    {scheme authority : List UInt8} (free : ∀ c ∈ scheme, URI.isOneOf URI.schemeEnds c = false)
    (authorized : uri.mAuthority = some authority) :
    ∃ other, registry.IsAddress other ∧ other.mString = URI.addressOf scheme authority := by
  rcases parsed with ⟨text, accepts⟩
  rcases URI.parsed_of_new accepts with ⟨path, parts⟩
  have found := URI.free_of_authorityOf (parts.authority.symm.trans authorized)
  have separable : URI.Separable scheme authority [] none :=
    ⟨free, found.2, found.1, List.forall_mem_nil _, .inl rfl, fun _ none => nomatch none⟩
  rcases URI.new_text separable with ⟨other, acceptsOther, composed⟩
  have string : other.mString = URI.addressOf scheme authority := by
    rw [composed.string]
    exact Binder.text_address scheme authority
  refine ⟨other, ⟨⟨_, acceptsOther⟩, ?_, ?_⟩, string⟩
  · rcases own with ⟨node, id, value, parted, number, same⟩
    refine ⟨node, id, value, ?_, ?_, same⟩
    · rw [Runtime.partsOf, authorized] at parted
      rw [Runtime.partsOf, composed.authority]
      exact parted
    · rw [Binder.numberIn_ok] at number ⊢
      exact number
  · rw [Runtime.address, composed.scheme, composed.authority, string]
    rfl

theorem exists_other (entry : Option Nat) : ∃ binder, entry ≠ some binder := by
  cases entry with
  | none => exact ⟨0, (Option.some_ne_none 0).symm⟩
  | some binder => exact ⟨binder + 1, fun same => Nat.succ_ne_self _ (Option.some.inj same).symm⟩

theorem update_alive_of_ne {alive : Nat → Bool} {binder other : Nat} {entry : Option Nat}
    (apart : entry ≠ some binder) (held : entry = some other) :
    Function.update alive binder true other = alive other :=
  Function.update_of_ne (fun same => apart (held.trans (congrArg some same))) _ _

/-- A binder that has no entry changes nothing for those that have. -/
theorem withBinder_idHolder {id : UInt64} {entry : Option Nat} {binder : Nat} (object : Binder)
    (entered : registry.mBinderIds id = some entry) (apart : entry ≠ some binder)
    (missing : registry.idHolder id = none) :
    (registry.withBinder binder object).idHolder id = none := by
  cases held : (registry.withBinder binder object).idHolder id with
  | none => rfl
  | some other =>
      rw [idHolder_eq_some] at held
      have isOther : entry = some other := Option.some.inj (entered.symm.trans held.1)
      have isAlive := (update_alive_of_ne apart isOther).symm.trans held.2
      have before := registry.idHolder_eq_some.mpr ⟨held.1, isAlive⟩
      exact before.symm.trans missing

theorem withBinder_holder {key : List UInt8} {entry : Option Nat} {binder : Nat}
    (object : Binder) (entered : registry.mBinderUris key = some entry)
    (apart : entry ≠ some binder) (missing : registry.holder key = none) :
    (registry.withBinder binder object).holder key = none := by
  cases held : (registry.withBinder binder object).holder key with
  | none => rfl
  | some other =>
      rw [Runtime.holder_eq_some] at held
      have isOther : entry = some other := Option.some.inj (entered.symm.trans held.1)
      have isAlive := (update_alive_of_ne apart isOther).symm.trans held.2
      have before := registry.holder_eq_some.mpr ⟨held.1, isAlive⟩
      exact before.symm.trans missing

theorem Registers.clean {registry : Registry} (registers : registry.Registers) :
    registry.Clean where
  byId := by
    intro low unused
    by_contra dirty
    rcases not_or.mp dirty with ⟨present, notHeld⟩
    have missing := Option.not_isSome_iff_eq_none.mp notHeld
    rcases Option.ne_none_iff_exists'.mp present with ⟨entry, entered⟩
    rcases exists_other entry with ⟨binder, apart⟩
    let constructed := registry.withBinder binder ⟨0, [], none⟩
    have free := registry.withBinder_idHolder ⟨0, [], none⟩ entered apart missing
    have attaches := { constructed with mBinderIdGenerator := low }.attachBinder_of_unused binder
      unused
    let counted := { constructed with mBinderIdGenerator := low + 1 }
    have presentThere : counted.mBinderIds (registry.countedId low) ≠ none := present
    have same := counted.enterId_of_present presentThere binder
    have found := (registers.byId low binder _ _ _ attaches free).1
    have kept := congrArg (fun next => next.mBinderIds (registry.countedId low)) same
    exact apart (Option.some.inj (entered.symm.trans (kept.symm.trans found)))
  byUri := by
    intro uri isAddress
    by_contra dirty
    rcases not_or.mp dirty with ⟨present, notHeld⟩
    have missing := Option.not_isSome_iff_eq_none.mp notHeld
    rcases Option.ne_none_iff_exists'.mp present with ⟨entry, entered⟩
    rcases exists_other entry with ⟨binder, apart⟩
    rcases Binder.exists_address 0 (List.forall_mem_nil _) with ⟨address, _⟩
    let object : Binder := ⟨0, [], some address⟩
    have free := registry.withBinder_holder object entered apart missing
    rcases registers.byUri uri binder object isAddress rfl free with ⟨attached, attaches, found, _⟩
    have named : ((registry.withBinder binder object).uriOf binder).isSome := by
      have same : (registry.withBinder binder object).binders binder = object :=
        Function.update_self _ _ _
      rw [uriOf, Option.isSome_map, same]
      rfl
    rw [attachUri_of_present _ named present] at attaches
    cases attaches
    exact apart (Option.some.inj (entered.symm.trans found))

/-- A harmless lookup leaves clean tables clean. -/
theorem Clean.lookUpOnce {registry : Registry} (clean : registry.Clean) {lookup : Lookup}
    (harmless : registry.Harmless lookup) : (registry.lookUpOnce lookup).Clean := by
  rcases registry.lookUpOnce_cases lookup with ⟨count, looked⟩ | ⟨id, rfl, own, absent, looked⟩ |
    ⟨uri, scheme, authority, rfl, own, schemed, authorized, looked⟩
  · rw [looked]
    exact ⟨clean.byId, fun uri isAddress => clean.byUri uri (isAddress.of_node rfl)⟩
  · rw [looked]
    refine ⟨?_, fun uri isAddress => clean.byUri uri (isAddress.of_node rfl)⟩
    intro low unused
    have used : registry.mIds (registry.mNodeId.toUInt64 <<< 32 ||| id) = true := by
      refine (harmless own).resolve_right fun present => ?_
      rw [absent] at present
      cases present
    have apart : registry.countedId low ≠ registry.mNodeId.toUInt64 <<< 32 ||| id := by
      intro same
      rw [← same] at used
      exact absurd (used.symm.trans unused) Bool.noConfusion
    change registry.Settled (Function.update registry.mBinderIds
      (registry.mNodeId.toUInt64 <<< 32 ||| id) (some none) (registry.countedId low))
    rw [Function.update_of_ne apart]
    exact clean.byId low unused
  · rw [looked]
    refine ⟨clean.byId, fun other isAddress => ?_⟩
    have before := clean.byUri other (isAddress.of_node rfl)
    have after := registry.urisAfter_looked scheme authority
    generalize registry.urisAfter scheme authority = uris at after ⊢
    change registry.Settled (uris other.mString)
    cases after with
    | found => exact before
    | dropped =>
        by_cases same : other.mString = URI.addressOf scheme authority
        · rw [same, Function.update_self]
          exact .inl rfl
        · rw [Function.update_of_ne same]
          exact before
    | @stub plugin binder stub missing foreign plugged held stubbed =>
        have isAlive := (harmless own scheme authority schemed authorized missing foreign).2
          plugin binder stub plugged held stubbed
        by_cases same : other.mString = URI.addressOf scheme authority
        · rw [same, Function.update_self]
          exact registry.settled_some isAlive
        · rw [Function.update_of_ne same]
          exact before
    | null missing foreign absent =>
        have present := (harmless own scheme authority schemed authorized missing foreign).1
        rw [absent] at present
        cases present

/-- A lookup that leaves clean tables clean is harmless. -/
theorem harmless_of_clean {lookup : Lookup} (clean : (registry.lookUpOnce lookup).Clean) :
    registry.Harmless lookup := by
  cases lookup with
  | byId id =>
      intro own
      by_contra harms
      rcases not_or.mp harms with ⟨unused, notPresent⟩
      have absent := Option.not_isSome_iff_eq_none.mp notPresent
      rw [registry.lookUpOnce_byId own absent] at clean
      have key := registry.key_eq_countedId own
      rw [key] at clean unused
      have settled : registry.Settled (Function.update registry.mBinderIds
          (registry.countedId id.toUInt32.toInt32) (some none)
          (registry.countedId id.toUInt32.toInt32)) :=
        clean.byId id.toUInt32.toInt32 (Bool.eq_false_of_not_eq_true unused)
      rw [Function.update_self] at settled
      exact registry.not_settled_null settled
  | byUri uri =>
      cases uri with
      | none => trivial
      | some uri =>
          intro own scheme authority schemed authorized missing foreign
          rw [registry.lookUpOnce_own uri.property own schemed authorized] at clean
          have settled : ∀ front, (∀ c ∈ front, URI.isOneOf URI.schemeEnds c = false) →
              registry.Settled (registry.urisAfter scheme authority
                (URI.addressOf front authority)) := by
            intro front free
            rcases registry.exists_isAddress uri.property own free authorized with
              ⟨other, isAddress, string⟩
            rw [← string]
            exact clean.byUri other (isAddress.of_node rfl)
          refine ⟨?_, ?_⟩
          · by_contra notPresent
            have absent := Option.not_isSome_iff_eq_none.mp notPresent
            have null := settled Runtime.MINDROID_SCHEME (String.forall_of_all (by decide))
            rw [registry.urisAfter_null missing foreign absent] at null
            exact registry.not_settled_null null
          · intro plugin binder stub plugged held stubbed
            rcases uri.property with ⟨text, accepts⟩
            have stubSettled := settled scheme (Binder.scheme_free_of_new accepts schemed)
            rw [registry.urisAfter_stub missing foreign plugged held stubbed] at stubSettled
            exact registry.alive_of_settled stubSettled

/-- What a lookup leaves behind, as a step. -/
def lookUpStep (registry : Registry) (lookup : Lookup) : Option Registry :=
  some (registry.lookUpOnce lookup)

end Registry

end Mindroid
