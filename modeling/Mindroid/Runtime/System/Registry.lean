import Mindroid.Foundation.Transition
import Mindroid.Os.Binder

/-!
# The registry of binders

The runtime of a node hands out ids to binders, finds them by id or by URI, and enters services.
An id has the node in its upper half.  A binder is the number of its object; the maps hold weak
pointers, and `get` of a map of weak pointers enters a null pointer for a key that is missing.
-/

set_option autoImplicit false

namespace Mindroid

/-- What `Runtime` reads of its configuration: the ids of the services of the own node by name, if
the configuration has the node, and the node and id of each service. -/
structure Configuration where
  node : Option (List UInt8 → Option Int32)
  services : List (UInt32 × Int32)

/-- The binders of a `Runtime` and the tables in which it enters them. -/
structure Registry extends Runtime Nat where
  mBinderIds : UInt64 → Option (Option Nat)
  mServices : List (List UInt8 × Nat)
  mBinderIdGenerator : Int32
  mIds : UInt64 → Bool
  mConfiguration : Option Configuration
  binders : Nat → Binder

namespace Binder

theorem ofParts_of_create {scheme : List UInt8} {mId : UInt64} {uri : URI}
    (created : URI.create (String.cStr scheme ++ String.valueOf "://" ++ authorityOf mId) =
      .ok uri) :
    URI.ofParts (some scheme) (some (authorityOf mId)) none none none = .ok uri := by
  have authority : String.cStr (authorityOf mId) = authorityOf mId :=
    String.cStr_of_nonzero fun c member =>
      (URI.ne_of_isOneOf (authorityOf_free mId c member) List.mem_cons_self).2
  have text : URI.text (some scheme) (some (authorityOf mId)) none none none =
      String.cStr scheme ++ String.valueOf "://" ++ authorityOf mId := by
    simp only [URI.text, URI.partText, Option.elim_some, Option.elim_none, List.append_nil,
      List.append_assoc, authority]
    rfl
  rw [← text, URI.create] at created
  have relative : ¬((some scheme).isSome && (none : Option (List UInt8)).any fun path =>
      path.head?.any (· != URI.slash)) = true := Bool.false_ne_true
  rw [URI.ofParts, if_neg relative]
  split at created
  · cases created
  · exact created

/-- `setId`, which makes the URI of the new id with the scheme of the old one. -/
def setId (binder : Binder) (id : UInt64) : Except Failure Binder :=
  match binder.mUri with
  | none => .error .nullPointer
  | some address =>
      match created : URI.create
          (String.cStr address.scheme ++ String.valueOf "://" ++ authorityOf id) with
      | .error failure => .error failure
      | .ok uri =>
          .ok { mId := id
                mDescriptor := binder.mDescriptor
                mUri := some ⟨address.scheme, address.scheme_free, uri,
                  ofParts_of_create created⟩ }

theorem attachInterface_mId {binder object : Binder} {descriptor : List UInt8}
    (attaches : binder.attachInterface descriptor = .ok object) : object.mId = binder.mId := by
  rw [attachInterface] at attaches
  split at attaches
  case h_1 =>
    cases attaches
    rfl
  case h_2 =>
    cases attaches
    rfl
  case h_3 => cases attaches

theorem setId_mId {binder moved : Binder} {id : UInt64} (sets : binder.setId id = .ok moved) :
    moved.mId = id := by
  rw [setId] at sets
  split at sets
  case h_1 => cases sets
  case h_2 =>
    split at sets
    case h_1 => cases sets
    case h_2 =>
      cases sets
      rfl

theorem text_authorityOf (scheme : List UInt8) (mId : UInt64) :
    addressText scheme mId = String.cStr scheme ++ String.valueOf "://" ++ authorityOf mId := by
  have authority : String.cStr (authorityOf mId) = authorityOf mId :=
    String.cStr_of_nonzero fun c member =>
      (URI.ne_of_isOneOf (authorityOf_free mId c member) List.mem_cons_self).2
  rw [addressText, text_address, authority]

/-- A binder with a URI can get any id. -/
theorem setId_ok {binder : Binder} (named : binder.mUri.isSome) (id : UInt64) :
    ∃ moved, binder.setId id = .ok moved ∧ moved.mUri.isSome := by
  rcases Option.isSome_iff_exists.mp named with ⟨address, addressed⟩
  rcases exists_address id address.scheme_free with ⟨next, same⟩
  have created : URI.create
      (String.cStr address.scheme ++ String.valueOf "://" ++ authorityOf id) = .ok next.uri := by
    rw [← text_authorityOf, ← same, URI.create, next.new_eq]
  rw [setId, addressed]
  dsimp only
  split
  case h_1 throws =>
    rw [created] at throws
    cases throws
  case h_2 => exact ⟨_, rfl, rfl⟩

end Binder

namespace Registry

variable (registry : Registry)

/-- The id of the own node with these lower bits. -/
def ownId (low : UInt64) : UInt64 :=
  registry.mNodeId.toUInt64 <<< 32 ||| (low &&& 0xFFFFFFFF)

/-- The id that a value of the counter stands for. -/
def countedId (count : Int32) : UInt64 :=
  registry.ownId count.toInt64.toUInt64

theorem ownId_ownId (low : UInt64) : registry.ownId (registry.ownId low) = registry.ownId low := by
  have once : (registry.ownId low).toBitVec = (registry.mNodeId.toBitVec.setWidth 64) <<< 32 |||
      (low.toBitVec &&& 0xFFFFFFFF#64) := rfl
  have twice : (registry.ownId (registry.ownId low)).toBitVec =
      (registry.mNodeId.toBitVec.setWidth 64) <<< 32 |||
        (((registry.mNodeId.toBitVec.setWidth 64) <<< 32 |||
          (low.toBitVec &&& 0xFFFFFFFF#64)) &&& 0xFFFFFFFF#64) := rfl
  apply UInt64.toBitVec_inj.mp
  apply BitVec.eq_of_getLsbD_eq
  intro i inside
  rw [twice, once]
  simp only [BitVec.getLsbD_or, BitVec.getLsbD_shiftLeft, BitVec.getLsbD_setWidth,
    BitVec.getLsbD_and, Binder.getLsbD_mask]
  by_cases isLow : i < 32
  · simp [isLow]
  · simp [isLow]

/-- The node of an id of the own node. -/
theorem node_of_ownId (low : UInt64) : (registry.ownId low >>> 32).toUInt32 = registry.mNodeId := by
  have whole : (registry.ownId low >>> 32).toUInt32.toBitVec =
      (((registry.mNodeId.toBitVec.setWidth 64) <<< 32 |||
        (low.toBitVec &&& 0xFFFFFFFF#64)) >>> 32).setWidth 32 := rfl
  apply UInt32.toBitVec_inj.mp
  apply BitVec.eq_of_getLsbD_eq
  intro i inside
  rw [whole]
  simp only [BitVec.getLsbD_or, BitVec.getLsbD_shiftLeft, BitVec.getLsbD_setWidth,
    BitVec.getLsbD_and, BitVec.getLsbD_ushiftRight, Binder.getLsbD_mask]
  have upper : 32 + i < 64 := by omega
  simp [inside, upper]
  omega

/-- The key of an id whose upper half is empty or the own node. -/
theorem key_eq_countedId {id : UInt64}
    (own : (id >>> 32).toUInt32 = 0 ∨ registry.mNodeId = (id >>> 32).toUInt32) :
    registry.mNodeId.toUInt64 <<< 32 ||| id = registry.countedId id.toUInt32.toInt32 := by
  have half : (registry.countedId id.toUInt32.toInt32).toBitVec =
      (registry.mNodeId.toBitVec.setWidth 64) <<< 32 |||
        (((id.toBitVec.setWidth 32).signExtend 64) &&& 0xFFFFFFFF#64) := rfl
  have whole : (registry.mNodeId.toUInt64 <<< 32 ||| id).toBitVec =
      (registry.mNodeId.toBitVec.setWidth 64) <<< 32 ||| id.toBitVec := rfl
  have upper : ∀ i, i < 32 →
      (id >>> 32).toUInt32.toBitVec.getLsbD i = id.toBitVec.getLsbD (32 + i) := by
    intro i inside
    have bits : (id >>> 32).toUInt32.toBitVec = (id.toBitVec >>> 32).setWidth 32 := rfl
    rw [bits, BitVec.getLsbD_setWidth, BitVec.getLsbD_ushiftRight]
    simp [inside]
  apply UInt64.toBitVec_inj.mp
  apply BitVec.eq_of_getLsbD_eq
  intro i inside
  rw [whole, half]
  simp only [BitVec.getLsbD_or, BitVec.getLsbD_shiftLeft, BitVec.getLsbD_signExtend,
    BitVec.getLsbD_setWidth, BitVec.getLsbD_and, Binder.getLsbD_mask]
  by_cases low : i < 32
  · simp [low, inside]
  · have below : i - 32 < 32 := by omega
    have within : i - 32 < 64 := Nat.lt_trans below (by decide)
    have back : 32 + (i - 32) = i := Nat.add_sub_cancel' (Nat.le_of_not_lt low)
    have bit := upper (i - 32) below
    rw [back] at bit
    rcases own with zero | own
    · rw [zero] at bit
      simp [low, ← bit]
    · rw [← own] at bit
      cases known : id.toBitVec.getLsbD i with
      | false => simp [low, inside]
      | true =>
          rw [known] at bit
          simp [low, inside, bit, within]

/-- An id of the own node is its own key. -/
theorem ownId_key (low : UInt64) :
    registry.mNodeId.toUInt64 <<< 32 ||| registry.ownId low = registry.ownId low := by
  rw [ownId, ← UInt64.or_assoc, UInt64.or_self]

/-- The loop of `attachBinder`, which counts on while the ids are used.  It never ends when all of
them are. -/
def unusedId : Nat → Int32 → Option (UInt64 × Int32)
  | 0, _ => none
  | fuel + 1, count =>
      if registry.mIds (registry.countedId count) then
        unusedId fuel (count + 1)
      else
        some (registry.countedId count, count + 1)

/-- The part of `attachBinder` after the loop.  An id that has an entry is only reported. -/
def enterId (id : UInt64) (binder : Nat) : Registry :=
  if (registry.mBinderIds id).isSome then
    registry
  else
    { registry with
      mBinderIds := Function.update registry.mBinderIds id (some (some binder))
      mIds := Function.update registry.mIds id true }

/-- `attachBinder(binder)`. -/
def attachBinder (binder : Nat) : Option (UInt64 × Registry) :=
  match registry.unusedId (2 ^ 32) registry.mBinderIdGenerator with
  | none => none
  | some (id, count) => some (id, { registry with mBinderIdGenerator := count }.enterId id binder)

/-- The first id from a value of the counter on that is not used is so many steps away. -/
structure FirstUnused (count : Int32) (steps : Nat) : Prop where
  used : ∀ before < steps, registry.mIds (registry.countedId (count + Int32.ofNat before)) = true
  unused : registry.mIds (registry.countedId (count + Int32.ofNat steps)) = false

theorem FirstUnused.unique {registry : Registry} {count : Int32} {steps steps' : Nat}
    (first : registry.FirstUnused count steps) (first' : registry.FirstUnused count steps') :
    steps = steps' := by
  rcases Nat.lt_trichotomy steps steps' with less | same | less
  · exact absurd ((first'.used steps less).symm.trans first.unused) Bool.noConfusion
  · exact same
  · exact absurd ((first.used steps' less).symm.trans first'.unused) Bool.noConfusion

/-- The loop stops at the first id that is not used. -/
theorem unusedId_first {fuel : Nat} {count next : Int32} {id : UInt64}
    (found : registry.unusedId fuel count = some (id, next)) :
    ∃ steps, registry.FirstUnused count steps ∧
      id = registry.countedId (count + Int32.ofNat steps) := by
  have zero : ∀ count : Int32, count + Int32.ofNat 0 = count := Int32.add_zero
  have succ : ∀ (count : Int32) (n : Nat),
      count + 1 + Int32.ofNat n = count + Int32.ofNat (n + 1) := by
    intro count n
    rw [Nat.add_comm, Int32.ofNat_add, Int32.add_assoc]
    rfl
  induction fuel generalizing count with
  | zero => cases found
  | succ fuel ih =>
      rw [unusedId] at found
      split at found
      case isTrue used =>
        rcases ih found with ⟨steps, first, same⟩
        refine ⟨steps + 1, ⟨?_, ?_⟩, ?_⟩
        · intro before less
          cases before with
          | zero =>
              rw [zero]
              exact used
          | succ before =>
              rw [← succ]
              exact first.used before (Nat.lt_of_succ_lt_succ less)
        · rw [← succ]
          exact first.unused
        · rw [← succ]
          exact same
      case isFalse unused =>
        cases found
        refine ⟨0, ⟨fun before less => absurd less (Nat.not_lt_zero _), ?_⟩, ?_⟩
        · rw [zero]
          exact Bool.eq_false_of_not_eq_true unused
        · rw [zero]

/-- A binder is entered under the first id that was not used. -/
theorem attachBinder_cases {binder : Nat} {id : UInt64} {attached : Registry}
    (attaches : registry.attachBinder binder = some (id, attached)) :
    ∃ steps next, registry.FirstUnused registry.mBinderIdGenerator steps ∧
      id = registry.countedId (registry.mBinderIdGenerator + Int32.ofNat steps) ∧
      attached = { registry with mBinderIdGenerator := next }.enterId id binder := by
  rw [attachBinder] at attaches
  split at attaches
  case h_1 => cases attaches
  case h_2 id' next found =>
    cases attaches
    rcases registry.unusedId_first found with ⟨steps, first, same⟩
    exact ⟨steps, next, first, same, rfl⟩

theorem attachBinder_of_unused (binder : Nat)
    (unused : registry.mIds (registry.countedId registry.mBinderIdGenerator) = false) :
    registry.attachBinder binder = some (registry.countedId registry.mBinderIdGenerator,
      { registry with mBinderIdGenerator := registry.mBinderIdGenerator + 1 }.enterId
        (registry.countedId registry.mBinderIdGenerator) binder) := by
  have first : registry.unusedId (2 ^ 32) registry.mBinderIdGenerator =
      some (registry.countedId registry.mBinderIdGenerator, registry.mBinderIdGenerator + 1) := by
    change registry.unusedId (4294967295 + 1) registry.mBinderIdGenerator = _
    rw [unusedId, unused]
    exact if_neg Bool.false_ne_true
  rw [attachBinder, first]

theorem enterId_of_absent {id : UInt64} (absent : registry.mBinderIds id = none) (binder : Nat) :
    registry.enterId id binder =
      { registry with
        mBinderIds := Function.update registry.mBinderIds id (some (some binder))
        mIds := Function.update registry.mIds id true } := by
  rw [enterId, absent]
  exact if_neg Bool.false_ne_true

theorem enterId_of_present {id : UInt64} (present : registry.mBinderIds id ≠ none)
    (binder : Nat) : registry.enterId id binder = registry := by
  rcases Option.ne_none_iff_exists'.mp present with ⟨entry, entered⟩
  rw [enterId, entered]
  exact if_pos rfl

/-- `binder->getUri()`. -/
def uriOf (binder : Nat) : Option URI :=
  (registry.binders binder).mUri.map Binder.Address.uri

/-- `attachBinder(uri, binder)`. -/
def attachUri (uri : URI) (binder : Nat) : Except Failure Registry :=
  match registry.uriOf binder with
  | none => .error (.illegalArgumentException (String.valueOf "Binder URI must not be null"))
  | some _ =>
      if (registry.mBinderUris uri.mString).isSome then
        .ok registry
      else
        .ok { registry with
          mBinderUris := Function.update registry.mBinderUris uri.mString (some (some binder)) }

theorem attachUri_of_absent {uri : URI} {binder : Nat} (named : (registry.uriOf binder).isSome)
    (absent : registry.mBinderUris uri.mString = none) :
    registry.attachUri uri binder =
      .ok { registry with
        mBinderUris := Function.update registry.mBinderUris uri.mString (some (some binder)) } := by
  rcases Option.isSome_iff_exists.mp named with ⟨address, addressed⟩
  rw [attachUri, addressed, absent]
  exact if_neg Bool.false_ne_true

theorem attachUri_of_present {uri : URI} {binder : Nat} (named : (registry.uriOf binder).isSome)
    (present : registry.mBinderUris uri.mString ≠ none) :
    registry.attachUri uri binder = .ok registry := by
  rcases Option.isSome_iff_exists.mp named with ⟨address, addressed⟩
  rcases Option.ne_none_iff_exists'.mp present with ⟨entry, entered⟩
  rw [attachUri, addressed, entered]
  exact if_pos rfl

/-- The removals from the tables of ids. -/
def removeId (id : UInt64) : Registry :=
  { registry with
    mIds := Function.update registry.mIds id false
    mBinderIds := Function.update registry.mBinderIds id none }

def detachBinder (id : UInt64) (uri : Option URI) : Registry :=
  match uri with
  | none => registry.removeId id
  | some uri =>
      { registry.removeId id with
        mBinderUris := Function.update registry.mBinderUris uri.mString none }

/-- `getBinder(id)`. -/
def getBinderById (id : UInt64) : Option Nat × Registry :=
  let nodeId := (id >>> 32).toUInt32
  if nodeId = 0 ∨ registry.mNodeId = nodeId then
    let key := registry.mNodeId.toUInt64 <<< 32 ||| id
    match registry.mBinderIds key with
    | some entry => (entry.filter registry.alive, registry)
    | none =>
        (none, { registry with
          mBinderIds := Function.update registry.mBinderIds key (some none) })
  else
    (none, registry)

/-- `getBinder(uri)`.  Where it throws the tables stay as they are. -/
def getBinderByUri (uri : Option URI) : Except Failure (Option (IBinder Nat)) × Registry :=
  match registry.getBinder uri with
  | .error failure => (.error failure, registry)
  | .ok (binder, runtime) => (.ok binder, { registry with toRuntime := runtime })

/-- The live binder that is entered under an id. -/
def idHolder (id : UInt64) : Option Nat :=
  (registry.mBinderIds id).bind fun entry => entry.filter registry.alive

theorem idHolder_eq_some {id : UInt64} {binder : Nat} :
    registry.idHolder id = some binder ↔
      registry.mBinderIds id = some (some binder) ∧ registry.alive binder = true := by
  rw [idHolder, Option.bind_eq_some_iff]
  constructor
  · rintro ⟨entry, entered, kept⟩
    rw [Option.filter_eq_some_iff] at kept
    exact ⟨entered.trans (congrArg some kept.1), kept.2⟩
  · intro held
    exact ⟨some binder, held.1, Option.filter_eq_some_iff.mpr ⟨rfl, held.2⟩⟩

theorem getBinderById_fst {id : UInt64}
    (own : (id >>> 32).toUInt32 = 0 ∨ registry.mNodeId = (id >>> 32).toUInt32) :
    (registry.getBinderById id).1 = registry.idHolder (registry.mNodeId.toUInt64 <<< 32 ||| id) := by
  rw [getBinderById]
  dsimp only
  rw [if_pos own, idHolder]
  cases registry.mBinderIds (registry.mNodeId.toUInt64 <<< 32 ||| id) with
  | none => rfl
  | some entry => rfl

/-- A binder of the own node is found by its id. -/
theorem getBinderById_ownId (low : UInt64) :
    (registry.getBinderById (registry.ownId low)).1 = registry.idHolder (registry.ownId low) := by
  rw [getBinderById_fst registry (.inr (registry.node_of_ownId low).symm), ownId_key]

/-- The registry with a binder that is alive, with some fields. -/
def withBinder (binder : Nat) (object : Binder) : Registry :=
  { registry with
    alive := Function.update registry.alive binder true
    binders := Function.update registry.binders binder object }

/-- Only the table of URIs changes. -/
theorem attachUri_cases {uri : URI} {binder : Nat} {attached : Registry}
    (attaches : registry.attachUri uri binder = .ok attached) :
    ∃ uris, attached = { registry with mBinderUris := uris } := by
  rw [attachUri] at attaches
  split at attaches
  case h_1 => cases attaches
  case h_2 =>
    split at attaches
    case isTrue =>
      cases attaches
      exact ⟨registry.mBinderUris, rfl⟩
    case isFalse =>
      cases attaches
      exact ⟨_, rfl⟩

/-- `attachInterface`.  No URI is attached after a `URISyntaxException`. -/
def attachInterface (binder : Nat) (descriptor : List UInt8) : Except Failure Registry := do
  let object ← (registry.binders binder).attachInterface descriptor
  let registry := { registry with binders := Function.update registry.binders binder object }
  match Binder.addressFor object.mId descriptor with
  | .ok address => registry.attachUri address.uri binder
  | .error _ => pure registry

theorem attachInterface_cases {binder : Nat} {descriptor : List UInt8} {attached : Registry}
    (attaches : registry.attachInterface binder descriptor = .ok attached) :
    ∃ object uris, object.mId = (registry.binders binder).mId ∧
      attached = { registry with
        binders := Function.update registry.binders binder object, mBinderUris := uris } := by
  rw [attachInterface] at attaches
  cases named : (registry.binders binder).attachInterface descriptor with
  | error failure =>
      rw [named] at attaches
      cases attaches
  | ok object =>
      rw [named] at attaches
      simp only [bind, Except.bind] at attaches
      have kept := Binder.attachInterface_mId named
      split at attaches
      case h_1 =>
        rcases attachUri_cases _ attaches with ⟨uris, rfl⟩
        exact ⟨object, uris, kept, rfl⟩
      case h_2 =>
        cases attaches
        exact ⟨object, registry.mBinderUris, kept, rfl⟩

/-! ## Services -/

/-- `service->getUri()`. -/
def serviceUri : IBinder Nat → Option URI
  | .binder binder => registry.uriOf binder
  | .proxy proxy => some proxy.mUri

/-- The id that the configuration has for the service. -/
def configuredId (uri : URI) : Option Int32 := do
  let services ← (← registry.mConfiguration).node
  services (← uri.mAuthority)

/-- The part of `addService` for a service with an id in the configuration. -/
def moveBinder (binder : Nat) (id : Int32) : Except Failure Registry := do
  let object := registry.binders binder
  let oldId := registry.ownId object.mId
  let newId := registry.countedId id
  let moved ← object.setId newId
  match object.mUri, moved.mUri with
  | some oldUri, some newUri =>
      let removed := registry.removeId oldId
      let uris := Function.update registry.mBinderUris oldUri.uri.mString none
      .ok { registry with
        binders := Function.update registry.binders binder moved
        mIds := Function.update removed.mIds newId true
        mBinderIds := Function.update removed.mBinderIds newId (some (some binder))
        mBinderUris := Function.update uris newUri.uri.mString (some (some binder)) }
  | _, _ => .error .nullPointer

/-- `mServices->containsKey(uri->toString())`. -/
def containsService (uri : URI) : Bool :=
  registry.mServices.any fun entry => entry.1 == uri.mString

/-- The part of `addService` after its checks. -/
def enterService (uri : URI) (binder : Nat) : Except Failure Registry :=
  if registry.containsService uri then
    .ok registry
  else do
    let registry ← match registry.configuredId uri with
      | none => .ok registry
      | some id => registry.moveBinder binder id
    pure { registry with mServices := (uri.mString, binder) :: registry.mServices }

/-- `Binder scheme mismatch: %s != %s`. -/
def schemeMismatch (uri serviceUri : URI) : Failure :=
  .illegalArgumentException (String.valueOf "Binder scheme mismatch: " ++
    String.cStr uri.mString ++ String.valueOf " != " ++ String.cStr serviceUri.mString)

/-- The checks of `addService`. -/
def checkService (uri : Option URI) (service : Option (IBinder Nat)) :
    Except Failure (URI × Nat) :=
  match uri, service with
  | some uri, some service =>
      match registry.serviceUri service with
      | none => .error (.illegalArgumentException (String.valueOf "Service URI must not be null"))
      | some serviceUri =>
          match uri.mScheme, serviceUri.mScheme with
          | some scheme, some serviceScheme =>
              if String.equals scheme serviceScheme then
                match service with
                | .binder binder => .ok (uri, binder)
                | .proxy _ => .error (.illegalArgumentException
                    (String.valueOf "Service must be of superclass mindroid::Binder"))
              else
                .error (schemeMismatch uri serviceUri)
          | _, _ => .error (schemeMismatch uri serviceUri)
  | _, _ => .error .nullPointer

def addService (uri : Option URI) (service : Option (IBinder Nat)) : Except Failure Registry := do
  let (uri, binder) ← registry.checkService uri service
  registry.enterService uri binder

/-- The binder that `addService` gives an id of the configuration, with that id. -/
def movedBy (uri : Option URI) (service : Option (IBinder Nat)) : Option (Nat × Int32) :=
  match registry.checkService uri service with
  | .error _ => none
  | .ok (uri, binder) =>
      if registry.containsService uri then
        none
      else
        (registry.configuredId uri).map fun id => (binder, id)

theorem checkService_binder {uri : Option URI} {service : Option (IBinder Nat)} {found : URI}
    {binder : Nat} (checked : registry.checkService uri service = .ok (found, binder)) :
    service = some (.binder binder) ∧ (registry.uriOf binder).isSome := by
  cases uri with
  | none => cases checked
  | some uri =>
      cases service with
      | none => cases checked
      | some service =>
          rw [checkService.eq_def] at checked
          dsimp only at checked
          split at checked
          case h_1 => cases checked
          case h_2 serviceUri named =>
            split at checked
            case h_1 =>
              split at checked
              case isTrue =>
                cases service with
                | binder other =>
                    cases checked
                    exact ⟨rfl, Option.isSome_iff_exists.mpr ⟨_, named⟩⟩
                | proxy => cases checked
              case isFalse => cases checked
            case h_2 => cases checked

theorem moveBinder_ok {binder : Nat} (named : (registry.uriOf binder).isSome) (id : Int32) :
    ∃ next, registry.moveBinder binder id = .ok next := by
  rw [uriOf, Option.isSome_map] at named
  rcases Binder.setId_ok named (registry.countedId id) with ⟨moved, sets, addressed⟩
  rcases Option.isSome_iff_exists.mp named with ⟨oldUri, old⟩
  rcases Option.isSome_iff_exists.mp addressed with ⟨newUri, new⟩
  rw [moveBinder]
  simp only [sets, old, new, bind, Except.bind]
  exact ⟨_, rfl⟩

theorem movedBy_binder {uri : Option URI} {service : Option (IBinder Nat)} {binder : Nat}
    {id : Int32} (movedTo : registry.movedBy uri service = some (binder, id)) :
    service = some (.binder binder) ∧ ∃ added, registry.addService uri service = .ok added := by
  rw [movedBy] at movedTo
  split at movedTo
  case h_1 => cases movedTo
  case h_2 found other checked =>
    split at movedTo
    case isTrue => cases movedTo
    case isFalse entered =>
      rcases Option.map_eq_some_iff.mp movedTo with ⟨configured, isConfigured, same⟩
      cases same
      rcases registry.checkService_binder checked with ⟨isBinder, named⟩
      rcases registry.moveBinder_ok named id with ⟨moved, moves⟩
      refine ⟨isBinder, { moved with
        mServices := (found.mString, binder) :: moved.mServices }, ?_⟩
      rw [addService, checked]
      simp only [bind, Except.bind]
      rw [enterService, if_neg entered, isConfigured]
      simp only [moves, bind, Except.bind]
      rfl

theorem moveBinder_cases {binder : Nat} {id : Int32} {next : Registry}
    (moves : registry.moveBinder binder id = .ok next) :
    ∃ moved uris, moved.mId = registry.countedId id ∧ next =
      { registry with
        binders := Function.update registry.binders binder moved
        mIds := Function.update (Function.update registry.mIds
          (registry.ownId (registry.binders binder).mId) false) (registry.countedId id) true
        mBinderIds := Function.update (Function.update registry.mBinderIds
          (registry.ownId (registry.binders binder).mId) none) (registry.countedId id)
          (some (some binder))
        mBinderUris := uris } := by
  rw [moveBinder] at moves
  cases sets : (registry.binders binder).setId (registry.countedId id) with
  | error failure =>
      rw [sets] at moves
      cases moves
  | ok moved =>
      rw [sets] at moves
      simp only [bind, Except.bind] at moves
      split at moves
      case h_1 =>
        cases moves
        exact ⟨moved, _, Binder.setId_mId sets, rfl⟩
      case h_2 => cases moves

/-- Without an id in the configuration a service is only listed. -/
theorem addService_listed {uri : Option URI} {service : Option (IBinder Nat)} {added : Registry}
    (adds : registry.addService uri service = .ok added)
    (notMoved : registry.movedBy uri service = none) :
    ∃ services, added = { registry with mServices := services } := by
  rw [addService] at adds
  rw [movedBy] at notMoved
  cases checked : registry.checkService uri service with
  | error failure =>
      rw [checked] at adds
      cases adds
  | ok pair =>
      rw [checked] at adds notMoved
      simp only [bind, Except.bind] at adds
      dsimp only at notMoved
      rw [enterService] at adds
      split at adds
      case isTrue =>
        cases adds
        exact ⟨registry.mServices, rfl⟩
      case isFalse entered =>
        rw [if_neg entered, Option.map_eq_none_iff] at notMoved
        rw [notMoved] at adds
        cases adds
        exact ⟨_, rfl⟩

/-- A service with an id in the configuration is moved to it. -/
theorem addService_moved {uri : Option URI} {service : Option (IBinder Nat)} {added : Registry}
    {binder : Nat} {id : Int32} (adds : registry.addService uri service = .ok added)
    (movedTo : registry.movedBy uri service = some (binder, id)) :
    ∃ moved services, registry.moveBinder binder id = .ok moved ∧
      added = { moved with mServices := services } := by
  rw [addService] at adds
  rw [movedBy] at movedTo
  cases checked : registry.checkService uri service with
  | error failure =>
      rw [checked] at adds
      cases adds
  | ok pair =>
      rw [checked] at adds movedTo
      simp only [bind, Except.bind] at adds
      dsimp only at movedTo
      rw [enterService] at adds
      split at adds
      case isTrue entered =>
        rw [if_pos entered] at movedTo
        cases movedTo
      case isFalse entered =>
        rw [if_neg entered, Option.map_eq_some_iff] at movedTo
        rcases movedTo with ⟨other, configured, same⟩
        cases same
        rw [configured] at adds
        dsimp only at adds
        simp only [bind, Except.bind] at adds
        split at adds
        case h_1 => cases adds
        case h_2 moved moves =>
          cases adds
          exact ⟨moved, _, moves, rfl⟩

/-- `service->getId()`. -/
def serviceId : IBinder Nat → UInt64
  | .binder binder => (registry.binders binder).mId
  | .proxy proxy => proxy.mId

def removeService (service : Option (IBinder Nat)) : Registry :=
  match service with
  | none => registry
  | some service =>
      { registry with
        mServices := registry.mServices.filter fun entry =>
          (registry.binders entry.2).mId != registry.serviceId service }

/-- The constructor.  The ids in the configuration count as used. -/
def new (nodeId : UInt32) (configuration : Option Configuration)
    (plugins : List UInt8 → Option (Runtime.Plugin Nat))
    (transact : Nat → Int32 → List UInt8 → Transacted) : Except Failure Registry :=
  if nodeId = 0 then
    .error (.illegalArgumentException
      (String.valueOf "Mindroid runtime system node id must not be 0"))
  else
    let registry : Registry :=
      { mNodeId := nodeId
        mBinderUris := fun _ => none
        mPlugins := plugins
        mProxyIdGenerator := 1
        alive := fun _ => false
        transact := transact
        mBinderIds := fun _ => none
        mServices := []
        mBinderIdGenerator := 1
        mIds := fun _ => false
        mConfiguration := configuration
        binders := fun _ => ⟨0, [], none⟩ }
    match configuration with
    | none => .ok registry
    | some configuration =>
        if configuration.node.isSome then
          .ok { registry with
            mIds := fun id => configuration.services.any fun service =>
              service.1 == nodeId && id == registry.ownId service.2.toInt64.toUInt64 }
        else
          .ok registry

end Registry

end Mindroid
