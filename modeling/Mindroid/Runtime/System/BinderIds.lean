import Mindroid.Runtime.System.Registry

/-!
# Ids of live binders

Binders are created and copied, given interfaces, entered as services and destroyed, in any order.
The ids of live binders should differ unless they are copies of each other, and a binder that was
registered should be found by its id.
-/

set_option autoImplicit false

namespace Mindroid

/-- A registry with the objects so far: the binder from which each one was copied, itself if it was
not, and whether it was registered under its id. -/
structure Binders where
  registry : Registry
  created : Nat
  original : Nat → Nat
  registered : Nat → Bool

inductive BinderAction where
  | create
  | copy (binder : Nat)
  | attachInterface (binder : Nat) (descriptor : List UInt8)
  | destroy (binder : Nat)
  | addService (uri : Option URI) (service : Option (IBinder Nat))
  | removeService (service : Option (IBinder Nat))

namespace Registry

variable (registry : Registry)

/-- A reference to a binder is one to a live one. -/
def refersToLive : Option (IBinder Nat) → Bool
  | some (.binder binder) => registry.alive binder
  | _ => true

end Registry

namespace Binders

variable (st : Binders)

def idOf (binder : Nat) : UInt64 :=
  (st.registry.binders binder).mId

/-- The constructors of a binder that is no copy. -/
def create : Option Binders :=
  let constructed := st.registry.withBinder st.created ⟨0, [], none⟩
  match constructed.attachBinder st.created with
  | none => none
  | some (id, attached) =>
      some
        { registry := { attached with
            binders := Function.update attached.binders st.created ⟨id, [], none⟩ }
          created := st.created + 1
          original := Function.update st.original st.created st.created
          registered := Function.update st.registered st.created true }

/-- The constructor `Binder(const sp<Binder>&)`. -/
def copy (binder : Nat) : Option Binders :=
  if st.registry.alive binder then
    some
      { registry := st.registry.withBinder st.created ⟨st.idOf binder, [], none⟩
        created := st.created + 1
        original := Function.update st.original st.created (st.original binder)
        registered := Function.update st.registered st.created false }
  else
    none

/-- An exception leaves the ids as they are. -/
def attachInterface (binder : Nat) (descriptor : List UInt8) : Option Binders :=
  if st.registry.alive binder then
    match st.registry.attachInterface binder descriptor with
    | .error _ => some st
    | .ok attached => some { st with registry := attached }
  else
    none

/-- The destructor of a binder to which no service refers. -/
def destroy (binder : Nat) : Option Binders :=
  if st.registry.alive binder ∧ ∀ entry ∈ st.registry.mServices, entry.2 ≠ binder then
    let dead := { st.registry with alive := Function.update st.registry.alive binder false }
    some { st with registry := dead.detachBinder (st.idOf binder) (st.registry.uriOf binder) }
  else
    none

def addService (uri : Option URI) (service : Option (IBinder Nat)) : Option Binders :=
  if st.registry.refersToLive service then
    match st.registry.addService uri service with
    | .error _ => some st
    | .ok added =>
        some { st with
          registry := added
          registered := match st.registry.movedBy uri service with
            | none => st.registered
            | some (binder, _) => Function.update st.registered binder true }
  else
    none

def removeService (service : Option (IBinder Nat)) : Option Binders :=
  if st.registry.refersToLive service then
    some { st with registry := st.registry.removeService service }
  else
    none

def step : BinderAction → Option Binders
  | .create => st.create
  | .copy binder => st.copy binder
  | .attachInterface binder descriptor => st.attachInterface binder descriptor
  | .destroy binder => st.destroy binder
  | .addService uri service => st.addService uri service
  | .removeService service => st.removeService service

/-- No binder has been created yet. -/
def start (registry : Registry) : Binders where
  registry := registry
  created := 0
  original := fun binder => binder
  registered := fun _ => false

/-- Live binders that are not copies of each other have different ids, and a live binder that was
registered is found by its id. -/
structure Sound : Prop where
  distinct : ∀ binder other, st.registry.alive binder → st.registry.alive other →
    st.original binder ≠ st.original other → st.idOf binder ≠ st.idOf other
  found : ∀ binder, st.registry.alive binder → st.registered binder →
    (st.registry.getBinderById (st.idOf binder)).1 = some binder

/-- A binder may get another id if no other live registered binder has its old or its new one, and
no live one that is not a copy has the new one. -/
def MayMove (binder : Nat) (id : UInt64) : Prop :=
  (∀ other, other ≠ binder → st.registry.alive other → st.registered other →
    st.idOf other ≠ st.idOf binder ∧ st.idOf other ≠ id) ∧
  ∀ other, st.registry.alive other → st.original other ≠ st.original binder → st.idOf other ≠ id

/-- No live binder has the first unused id when one is created, and no other live registered one
has the id of one that is destroyed. -/
def Permitted : BinderAction → Prop
  | .create => ∀ steps, st.registry.FirstUnused st.registry.mBinderIdGenerator steps →
      ∀ other, st.registry.alive other → st.idOf other ≠
        st.registry.countedId (st.registry.mBinderIdGenerator + Int32.ofNat steps)
  | .destroy binder => ∀ other, other ≠ binder → st.registry.alive other →
      st.registered other → st.idOf other ≠ st.idOf binder
  | .addService uri service => ∀ binder id, st.registry.movedBy uri service = some (binder, id) →
      st.MayMove binder (st.registry.countedId id)
  | .copy _ | .attachInterface _ _ | .removeService _ => True

/-! ## The invariant -/

/-- Every live registered binder is entered under its id, which is an id of the own node, and every
id with an entry is used. -/
structure Inv : Prop where
  distinct : ∀ binder other, st.registry.alive binder → st.registry.alive other →
    st.original binder ≠ st.original other → st.idOf binder ≠ st.idOf other
  entered : ∀ binder, st.registry.alive binder → st.registered binder →
    st.registry.mBinderIds (st.idOf binder) = some (some binder)
  used : ∀ id, st.registry.mBinderIds id ≠ none → st.registry.mIds id = true
  own : ∀ binder, st.registry.alive binder → ∃ low, st.idOf binder = st.registry.ownId low
  created : ∀ binder, st.registry.alive binder →
    binder < st.created ∧ st.original binder < st.created

theorem getBinderById_own {registry : Registry} {id low : UInt64} (own : id = registry.ownId low) :
    (registry.getBinderById id).1 = registry.idHolder id := by
  rw [own, Registry.getBinderById_ownId]

theorem Inv.sound {st : Binders} (inv : st.Inv) : st.Sound where
  distinct := inv.distinct
  found := by
    intro binder isAlive registered
    rcases inv.own binder isAlive with ⟨low, own⟩
    rw [getBinderById_own own, Registry.idHolder_eq_some]
    exact ⟨inv.entered binder isAlive registered, isAlive⟩

/-- A live registered binder that is found is entered. -/
theorem Sound.entered {st : Binders} (sound : st.Sound) {binder : Nat} {low : UInt64}
    (isAlive : st.registry.alive binder) (registered : st.registered binder)
    (own : st.idOf binder = st.registry.ownId low) :
    st.registry.mBinderIds (st.idOf binder) = some (some binder) := by
  have found := sound.found binder isAlive registered
  rw [getBinderById_own own, Registry.idHolder_eq_some] at found
  exact found.1

/-- What the ids depend on. -/
structure SameIds (st' : Binders) : Prop where
  node : st'.registry.mNodeId = st.registry.mNodeId
  alive : st'.registry.alive = st.registry.alive
  binderIds : st'.registry.mBinderIds = st.registry.mBinderIds
  ids : st'.registry.mIds = st.registry.mIds
  created : st'.created = st.created
  original : st'.original = st.original
  registered : st'.registered = st.registered
  idOf : ∀ binder, st'.idOf binder = st.idOf binder

theorem Inv.of_same {st st' : Binders} (inv : st.Inv) (same : st.SameIds st') : st'.Inv where
  distinct := by
    intro binder other
    rw [same.alive, same.original, same.idOf, same.idOf]
    exact inv.distinct binder other
  entered := by
    intro binder
    rw [same.alive, same.registered, same.idOf, same.binderIds]
    exact inv.entered binder
  used := by
    intro id
    rw [same.binderIds, same.ids]
    exact inv.used id
  own := by
    intro binder
    rw [same.alive, same.idOf]
    intro isAlive
    rcases inv.own binder isAlive with ⟨low, own⟩
    refine ⟨low, own.trans ?_⟩
    rw [Registry.ownId, Registry.ownId, same.node]
  created := by
    intro binder
    rw [same.alive, same.created, same.original]
    exact inv.created binder

/-! ## One action -/

theorem mId_update_self (binders : Nat → Binder) (binder : Nat) (object : Binder) :
    (Function.update binders binder object binder).mId = object.mId := by
  rw [Function.update_self]

theorem mId_update_of_ne (binders : Nat → Binder) {binder other : Nat} (object : Binder)
    (apart : other ≠ binder) :
    (Function.update binders binder object other).mId = (binders other).mId := by
  rw [Function.update_of_ne apart]

/-- A new binder with its id, which is entered if it is registered. -/
structure Adds (next : Binders) (id : UInt64) (root : Nat) (enters : Bool) : Prop where
  node : next.registry.mNodeId = st.registry.mNodeId
  alive : next.registry.alive = Function.update st.registry.alive st.created true
  created : next.created = st.created + 1
  original : next.original = Function.update st.original st.created root
  registered : next.registered = Function.update st.registered st.created enters
  idOfNew : next.idOf st.created = id
  idOf : ∀ other, other ≠ st.created → next.idOf other = st.idOf other
  binderIds : next.registry.mBinderIds = if enters then
    Function.update st.registry.mBinderIds id (some (some st.created)) else st.registry.mBinderIds
  ids : next.registry.mIds = if enters then
    Function.update st.registry.mIds id true else st.registry.mIds

section Adds

variable {st} {next : Binders} {id : UInt64} {root : Nat} {enters : Bool}

theorem Adds.alive_new (adds : st.Adds next id root enters) :
    next.registry.alive st.created = true := by
  rw [adds.alive, Function.update_self]

theorem Adds.alive_old (adds : st.Adds next id root enters) {binder : Nat}
    (old : binder ≠ st.created) : next.registry.alive binder = st.registry.alive binder := by
  rw [adds.alive, Function.update_of_ne old]

theorem Adds.original_old (adds : st.Adds next id root enters) {binder : Nat}
    (old : binder ≠ st.created) : next.original binder = st.original binder := by
  rw [adds.original, Function.update_of_ne old]

theorem Adds.distinct (adds : st.Adds next id root enters) (inv : st.Inv)
    (apart : ∀ other, st.registry.alive other → st.original other ≠ root →
      st.idOf other ≠ id) :
    ∀ binder other, next.registry.alive binder → next.registry.alive other →
      next.original binder ≠ next.original other → next.idOf binder ≠ next.idOf other := by
  intro binder other isAlive otherAlive originals
  by_cases isNew : binder = st.created
  · by_cases otherNew : other = st.created
    · exact absurd (congrArg next.original (isNew.trans otherNew.symm)) originals
    · rw [isNew, adds.original_old otherNew, adds.original, Function.update_self] at originals
      rw [adds.alive_old otherNew] at otherAlive
      rw [isNew, adds.idOfNew, adds.idOf other otherNew]
      exact (apart other otherAlive originals.symm).symm
  · rw [adds.alive_old isNew] at isAlive
    rw [adds.original_old isNew] at originals
    rw [adds.idOf binder isNew]
    by_cases otherNew : other = st.created
    · rw [otherNew, adds.original, Function.update_self] at originals
      rw [otherNew, adds.idOfNew]
      exact apart binder isAlive originals
    · rw [adds.alive_old otherNew] at otherAlive
      rw [adds.original_old otherNew] at originals
      rw [adds.idOf other otherNew]
      exact inv.distinct binder other isAlive otherAlive originals

/-- A new binder keeps the invariant if its id is unused, or the one of its original. -/
theorem Adds.inv (adds : st.Adds next id root enters) (inv : st.Inv)
    (own : ∃ low, id = st.registry.ownId low) (known : root < st.created + 1)
    (apart : ∀ other, st.registry.alive other → st.original other ≠ root →
      st.idOf other ≠ id)
    (absent : enters = true → st.registry.mBinderIds id = none) : next.Inv where
  distinct := adds.distinct inv apart
  entered := by
    intro binder isAlive isRegistered
    rw [adds.binderIds]
    by_cases isNew : binder = st.created
    · rw [isNew, adds.registered, Function.update_self] at isRegistered
      rw [isNew, adds.idOfNew, if_pos isRegistered, Function.update_self]
    · rw [adds.alive_old isNew] at isAlive
      rw [adds.registered, Function.update_of_ne isNew] at isRegistered
      rw [adds.idOf binder isNew]
      have entered := inv.entered binder isAlive isRegistered
      cases enters with
      | false => exact entered
      | true =>
          have other : st.idOf binder ≠ id := by
            intro same
            rw [same, absent rfl] at entered
            cases entered
          rw [if_pos rfl, Function.update_of_ne other]
          exact entered
  used := by
    intro other present
    rw [adds.binderIds] at present
    rw [adds.ids]
    cases enters with
    | false => exact inv.used other present
    | true =>
        rw [if_pos rfl] at present ⊢
        by_cases same : other = id
        · rw [same, Function.update_self]
        · rw [Function.update_of_ne same] at present ⊢
          exact inv.used other present
  own := by
    intro binder isAlive
    have node : next.registry.ownId = st.registry.ownId := by
      funext low
      rw [Registry.ownId, Registry.ownId, adds.node]
    rw [node]
    by_cases isNew : binder = st.created
    · rw [isNew, adds.idOfNew]
      exact own
    · rw [adds.alive_old isNew] at isAlive
      rw [adds.idOf binder isNew]
      exact inv.own binder isAlive
  created := by
    intro binder isAlive
    rw [adds.created]
    by_cases isNew : binder = st.created
    · rw [isNew, adds.original, Function.update_self]
      exact ⟨Nat.lt_succ_self _, known⟩
    · rw [adds.alive_old isNew] at isAlive
      rw [adds.original_old isNew]
      have before := inv.created binder isAlive
      exact ⟨Nat.lt_succ_of_lt before.1, Nat.lt_succ_of_lt before.2⟩

end Adds

/-- A new binder is entered under the first unused id. -/
theorem create_cases {st next : Binders} (inv : st.Inv) (taken : st.create = some next) :
    ∃ steps, st.registry.FirstUnused st.registry.mBinderIdGenerator steps ∧
      st.Adds next (st.registry.countedId (st.registry.mBinderIdGenerator + Int32.ofNat steps))
        st.created true := by
  rw [create] at taken
  split at taken
  case h_1 => cases taken
  case h_2 id attached attaches =>
    cases taken
    rcases Registry.attachBinder_cases _ attaches with ⟨steps, count, first, rfl, rfl⟩
    have unused := first.unused
    refine ⟨steps, ⟨first.used, unused⟩, ?_⟩
    have absent : st.registry.mBinderIds
        (st.registry.countedId (st.registry.mBinderIdGenerator + Int32.ofNat steps)) = none := by
      by_contra present
      exact absurd ((inv.used _ present).symm.trans unused) Bool.noConfusion
    have enters := Registry.enterId_of_absent
      { st.registry.withBinder st.created ⟨0, [], none⟩ with mBinderIdGenerator := count }
      absent st.created
    have objects := congrArg Registry.binders enters
    exact
      { node := congrArg (fun registry => registry.mNodeId) enters
        alive := congrArg (fun registry => registry.alive) enters
        created := rfl
        original := rfl
        registered := rfl
        idOfNew := mId_update_self _ _ _
        idOf := fun other old => (mId_update_of_ne _ _ old).trans
          ((congrArg Binder.mId (congrFun objects other)).trans (mId_update_of_ne _ _ old))
        binderIds := congrArg Registry.mBinderIds enters
        ids := congrArg Registry.mIds enters }

theorem copy_cases {next : Binders} {binder : Nat} (taken : st.copy binder = some next) :
    st.registry.alive binder = true ∧
      st.Adds next (st.idOf binder) (st.original binder) false := by
  rw [copy] at taken
  split at taken
  case isTrue isAlive =>
    cases taken
    exact ⟨isAlive,
      { node := rfl
        alive := rfl
        created := rfl
        original := rfl
        registered := rfl
        idOfNew := mId_update_self _ _ _
        idOf := fun other old => mId_update_of_ne _ _ old
        binderIds := rfl
        ids := rfl }⟩
  case isFalse => cases taken

/-- A binder that is gone from the tables with its id. -/
structure Removes (next : Binders) (binder : Nat) : Prop where
  node : next.registry.mNodeId = st.registry.mNodeId
  wasAlive : st.registry.alive binder = true
  alive : next.registry.alive = Function.update st.registry.alive binder false
  created : next.created = st.created
  original : next.original = st.original
  registered : next.registered = st.registered
  idOf : ∀ other, next.idOf other = st.idOf other
  binderIds : next.registry.mBinderIds =
    Function.update st.registry.mBinderIds (st.idOf binder) none
  ids : next.registry.mIds = Function.update st.registry.mIds (st.idOf binder) false

theorem destroy_cases {next : Binders} {binder : Nat} (taken : st.destroy binder = some next) :
    st.Removes next binder := by
  rw [destroy] at taken
  split at taken
  case isTrue may =>
    cases taken
    generalize st.registry.uriOf binder = uri
    cases uri with
    | none => exact ⟨rfl, may.1, rfl, rfl, rfl, rfl, fun _ => rfl, rfl, rfl⟩
    | some uri => exact ⟨rfl, may.1, rfl, rfl, rfl, rfl, fun _ => rfl, rfl, rfl⟩
  case isFalse => cases taken

section Removes

variable {st} {next : Binders} {binder : Nat}

theorem Removes.alive_other (removes : st.Removes next binder) {other : Nat}
    (isAlive : next.registry.alive other = true) :
    other ≠ binder ∧ st.registry.alive other = true := by
  rw [removes.alive] at isAlive
  have apart : other ≠ binder := by
    rintro rfl
    rw [Function.update_self] at isAlive
    cases isAlive
  rw [Function.update_of_ne apart] at isAlive
  exact ⟨apart, isAlive⟩

theorem Removes.inv (removes : st.Removes next binder) (inv : st.Inv)
    (permitted : st.Permitted (.destroy binder)) : next.Inv where
  distinct := by
    intro first second isAlive secondAlive originals
    rw [removes.original] at originals
    rw [removes.idOf, removes.idOf]
    exact inv.distinct first second (removes.alive_other isAlive).2
      (removes.alive_other secondAlive).2 originals
  entered := by
    intro other isAlive isRegistered
    rcases removes.alive_other isAlive with ⟨apart, wasAlive⟩
    rw [removes.registered] at isRegistered
    rw [removes.idOf, removes.binderIds,
      Function.update_of_ne (permitted other apart wasAlive isRegistered)]
    exact inv.entered other wasAlive isRegistered
  used := by
    intro id present
    rw [removes.binderIds] at present
    rw [removes.ids]
    by_cases same : id = st.idOf binder
    · rw [same, Function.update_self] at present
      exact absurd rfl present
    · rw [Function.update_of_ne same] at present ⊢
      exact inv.used id present
  own := by
    intro other isAlive
    rcases inv.own other (removes.alive_other isAlive).2 with ⟨low, own⟩
    refine ⟨low, ?_⟩
    rw [removes.idOf, own, Registry.ownId, Registry.ownId, removes.node]
  created := by
    intro other isAlive
    rw [removes.created, removes.original]
    exact inv.created other (removes.alive_other isAlive).2

/-- Where the rest is sound, no other live registered binder had the id. -/
theorem Removes.permitted (removes : st.Removes next binder) (inv : st.Inv)
    (sound : next.Sound) : st.Permitted (.destroy binder) := by
  intro other apart isAlive isRegistered same
  rcases inv.own other isAlive with ⟨low, own⟩
  have stillAlive : next.registry.alive other = true := by
    rw [removes.alive, Function.update_of_ne apart]
    exact isAlive
  have stillRegistered : next.registered other = true := by
    rw [removes.registered]
    exact isRegistered
  have stillOwn : next.idOf other = next.registry.ownId low := by
    rw [removes.idOf, own, Registry.ownId, Registry.ownId, removes.node]
  have entered := sound.entered stillAlive stillRegistered stillOwn
  rw [removes.idOf, same, removes.binderIds, Function.update_self] at entered
  cases entered

end Removes

/-- A binder that got another id. -/
structure Moves (next : Binders) (binder : Nat) (id : UInt64) : Prop where
  node : next.registry.mNodeId = st.registry.mNodeId
  wasAlive : st.registry.alive binder = true
  alive : next.registry.alive = st.registry.alive
  created : next.created = st.created
  original : next.original = st.original
  registered : next.registered = Function.update st.registered binder true
  idOfMoved : next.idOf binder = id
  idOf : ∀ other, other ≠ binder → next.idOf other = st.idOf other
  binderIds : next.registry.mBinderIds =
    Function.update (Function.update st.registry.mBinderIds
      (st.registry.ownId (st.idOf binder)) none) id (some (some binder))
  ids : next.registry.mIds =
    Function.update (Function.update st.registry.mIds (st.registry.ownId (st.idOf binder)) false)
      id true

theorem addService_cases {next : Binders} {uri : Option URI} {service : Option (IBinder Nat)}
    (taken : st.addService uri service = some next) :
    st.registry.movedBy uri service = none ∧ st.SameIds next ∨
      ∃ binder id, st.registry.movedBy uri service = some (binder, id) ∧
        st.Moves next binder (st.registry.countedId id) := by
  rw [addService] at taken
  split at taken
  case isFalse => cases taken
  case isTrue refers =>
    cases movedTo : st.registry.movedBy uri service with
    | none =>
        refine .inl ⟨rfl, ?_⟩
        split at taken
        case h_1 =>
          cases taken
          exact ⟨rfl, rfl, rfl, rfl, rfl, rfl, rfl, fun _ => rfl⟩
        case h_2 added adds =>
          cases taken
          rcases st.registry.addService_listed adds movedTo with ⟨services, rfl⟩
          rw [movedTo]
          exact ⟨rfl, rfl, rfl, rfl, rfl, rfl, rfl, fun _ => rfl⟩
    | some pair =>
        rcases pair with ⟨binder, id⟩
        refine .inr ⟨binder, id, rfl, ?_⟩
        rcases st.registry.movedBy_binder movedTo with ⟨isBinder, added, adds⟩
        rw [adds, movedTo] at taken
        cases taken
        rcases st.registry.addService_moved adds movedTo with ⟨moved, services, moves, rfl⟩
        rcases st.registry.moveBinder_cases moves with ⟨object, uris, objectId, rfl⟩
        rw [isBinder] at refers
        exact
          { node := rfl
            wasAlive := refers
            alive := rfl
            created := rfl
            original := rfl
            registered := rfl
            idOfMoved := (mId_update_self _ _ _).trans objectId
            idOf := fun other apart => mId_update_of_ne _ _ apart
            binderIds := rfl
            ids := rfl }

section Moves

variable {st} {next : Binders} {binder : Nat} {id : UInt64}

theorem Moves.inv (moves : st.Moves next binder id) (inv : st.Inv)
    (own : ∃ low, id = st.registry.ownId low) (mayMove : st.MayMove binder id) : next.Inv where
  distinct := by
    intro first second isAlive secondAlive originals
    rw [moves.alive] at isAlive secondAlive
    rw [moves.original] at originals
    by_cases isMoved : first = binder
    · have apart : second ≠ binder := fun same =>
        originals (congrArg st.original (isMoved.trans same.symm))
      rw [isMoved] at originals
      rw [isMoved, moves.idOfMoved, moves.idOf second apart]
      exact (mayMove.2 second secondAlive originals.symm).symm
    · rw [moves.idOf first isMoved]
      by_cases secondMoved : second = binder
      · rw [secondMoved] at originals
        rw [secondMoved, moves.idOfMoved]
        exact mayMove.2 first isAlive originals
      · rw [moves.idOf second secondMoved]
        exact inv.distinct first second isAlive secondAlive originals
  entered := by
    intro other isAlive isRegistered
    rw [moves.alive] at isAlive
    rw [moves.binderIds]
    by_cases isMoved : other = binder
    · rw [isMoved, moves.idOfMoved, Function.update_self]
    · rw [moves.registered, Function.update_of_ne isMoved] at isRegistered
      have apart := mayMove.1 other isMoved isAlive isRegistered
      rcases inv.own binder moves.wasAlive with ⟨low, ownOld⟩
      have old : st.registry.ownId (st.idOf binder) = st.idOf binder := by
        rw [ownOld, Registry.ownId_ownId]
      rw [moves.idOf other isMoved, old, Function.update_of_ne apart.2,
        Function.update_of_ne apart.1]
      exact inv.entered other isAlive isRegistered
  used := by
    intro other present
    rw [moves.binderIds] at present
    rw [moves.ids]
    by_cases isNew : other = id
    · rw [isNew, Function.update_self]
    · rw [Function.update_of_ne isNew] at present ⊢
      by_cases isOld : other = st.registry.ownId (st.idOf binder)
      · rw [isOld, Function.update_self] at present
        exact absurd rfl present
      · rw [Function.update_of_ne isOld] at present ⊢
        exact inv.used other present
  own := by
    intro other isAlive
    rw [moves.alive] at isAlive
    have node : next.registry.ownId = st.registry.ownId := by
      funext low
      rw [Registry.ownId, Registry.ownId, moves.node]
    rw [node]
    by_cases isMoved : other = binder
    · rw [isMoved, moves.idOfMoved]
      exact own
    · rw [moves.idOf other isMoved]
      exact inv.own other isAlive
  created := by
    intro other isAlive
    rw [moves.alive] at isAlive
    rw [moves.created, moves.original]
    exact inv.created other isAlive

/-- Where the rest is sound, the binder could get the id. -/
theorem Moves.mayMove (moves : st.Moves next binder id) (inv : st.Inv) (sound : next.Sound) :
    st.MayMove binder id := by
  constructor
  · intro other apart isAlive isRegistered
    rcases inv.own other isAlive with ⟨low, own⟩
    have stillAlive : next.registry.alive other = true := by
      rw [moves.alive]
      exact isAlive
    have stillRegistered : next.registered other = true := by
      rw [moves.registered, Function.update_of_ne apart]
      exact isRegistered
    have stillOwn : next.idOf other = next.registry.ownId low := by
      rw [moves.idOf other apart, own, Registry.ownId, Registry.ownId, moves.node]
    have entered := sound.entered stillAlive stillRegistered stillOwn
    rw [moves.idOf other apart, moves.binderIds] at entered
    have notNew : st.idOf other ≠ id := by
      intro same
      rw [same, Function.update_self] at entered
      exact apart (Option.some.inj (Option.some.inj entered)).symm
    refine ⟨?_, notNew⟩
    intro same
    have old : st.registry.ownId (st.idOf binder) = st.idOf other := by
      rw [← same, own, Registry.ownId_ownId]
    rw [Function.update_of_ne notNew, old, Function.update_self] at entered
    cases entered
  · intro other isAlive originals same
    have apart : other ≠ binder := fun isMoved => originals (congrArg st.original isMoved)
    apply sound.distinct other binder
    · rw [moves.alive]
      exact isAlive
    · rw [moves.alive]
      exact moves.wasAlive
    · rw [moves.original]
      exact originals
    · rw [moves.idOf other apart, moves.idOfMoved]
      exact same

end Moves

theorem attachInterface_same {next : Binders} {binder : Nat} {descriptor : List UInt8}
    (taken : st.attachInterface binder descriptor = some next) : st.SameIds next := by
  rw [attachInterface] at taken
  split at taken
  case isTrue =>
    split at taken
    case h_1 =>
      cases taken
      exact ⟨rfl, rfl, rfl, rfl, rfl, rfl, rfl, fun _ => rfl⟩
    case h_2 attached attaches =>
      cases taken
      rcases st.registry.attachInterface_cases attaches with ⟨object, uris, objectId, rfl⟩
      refine ⟨rfl, rfl, rfl, rfl, rfl, rfl, rfl, fun other => ?_⟩
      by_cases same : other = binder
      · rw [same]
        exact (mId_update_self _ _ _).trans objectId
      · exact mId_update_of_ne _ _ same
  case isFalse => cases taken

theorem removeService_same {next : Binders} {service : Option (IBinder Nat)}
    (taken : st.removeService service = some next) : st.SameIds next := by
  rw [removeService] at taken
  split at taken
  case isTrue =>
    cases taken
    cases service with
    | none => exact ⟨rfl, rfl, rfl, rfl, rfl, rfl, rfl, fun _ => rfl⟩
    | some service => exact ⟨rfl, rfl, rfl, rfl, rfl, rfl, rfl, fun _ => rfl⟩
  case isFalse => cases taken

/-! ## Runs -/

/-- An action that is permitted keeps the invariant. -/
theorem step_inv {st next : Binders} {action : BinderAction} (inv : st.Inv)
    (permitted : st.Permitted action) (taken : st.step action = some next) : next.Inv := by
  cases action with
  | create =>
      rcases create_cases inv taken with ⟨steps, first, adds⟩
      have absent : st.registry.mBinderIds
          (st.registry.countedId (st.registry.mBinderIdGenerator + Int32.ofNat steps)) = none := by
        by_contra present
        exact absurd ((inv.used _ present).symm.trans first.unused) Bool.noConfusion
      exact adds.inv inv ⟨_, rfl⟩ (Nat.lt_succ_self _)
        (fun other isAlive _ => permitted steps first other isAlive) fun _ => absent
  | copy binder =>
      rcases st.copy_cases taken with ⟨isAlive, adds⟩
      exact adds.inv inv (inv.own binder isAlive)
        (Nat.lt_succ_of_lt (inv.created binder isAlive).2)
        (fun other otherAlive originals => inv.distinct other binder otherAlive isAlive originals)
        Bool.noConfusion
  | attachInterface binder descriptor => exact inv.of_same (st.attachInterface_same taken)
  | destroy binder => exact (st.destroy_cases taken).inv inv permitted
  | addService uri service =>
      rcases st.addService_cases taken with ⟨_, same⟩ | ⟨binder, id, movedTo, moves⟩
      · exact inv.of_same same
      · exact moves.inv inv ⟨_, rfl⟩ (permitted binder id movedTo)
  | removeService service => exact inv.of_same (st.removeService_same taken)

/-- An action after which the ids are sound was permitted. -/
theorem permitted_of_sound {st next : Binders} {action : BinderAction} (inv : st.Inv)
    (taken : st.step action = some next) (sound : next.Sound) : st.Permitted action := by
  cases action with
  | create =>
      rcases create_cases inv taken with ⟨steps, first, adds⟩
      intro steps' first' other isAlive same
      cases first'.unique first
      have known := inv.created other isAlive
      have old : other ≠ st.created := Nat.ne_of_lt known.1
      apply sound.distinct other st.created
      · rw [adds.alive_old old]
        exact isAlive
      · exact adds.alive_new
      · rw [adds.original_old old, adds.original, Function.update_self]
        exact Nat.ne_of_lt known.2
      · rw [adds.idOf other old, adds.idOfNew]
        exact same
  | copy binder => trivial
  | attachInterface binder descriptor => trivial
  | destroy binder => exact (st.destroy_cases taken).permitted inv sound
  | addService uri service =>
      intro binder id movedTo
      rcases st.addService_cases taken with ⟨notMoved, _⟩ | ⟨other, newId, isMoved, moves⟩
      · rw [movedTo] at notMoved
        cases notMoved
      · rw [movedTo] at isMoved
        cases isMoved
        exact moves.mayMove inv sound
  | removeService service => trivial

theorem start_inv {nodeId : UInt32} {configuration : Option Configuration}
    {plugins : List UInt8 → Option (Runtime.Plugin Nat)}
    {transact : Nat → Int32 → List UInt8 → Transacted} {registry : Registry}
    (started : Registry.new nodeId configuration plugins transact = .ok registry) :
    (start registry).Inv := by
  have empty : (∀ binder, registry.alive binder = false) ∧
      ∀ id, registry.mBinderIds id = none := by
    rw [Registry.new] at started
    split at started
    case isTrue => cases started
    case isFalse =>
      cases configuration with
      | none =>
          cases started
          exact ⟨fun _ => rfl, fun _ => rfl⟩
      | some configuration =>
          dsimp only at started
          split at started
          · cases started
            exact ⟨fun _ => rfl, fun _ => rfl⟩
          · cases started
            exact ⟨fun _ => rfl, fun _ => rfl⟩
  have dead : ∀ binder, ¬(start registry).registry.alive binder = true := by
    intro binder isAlive
    exact absurd ((empty.1 binder).symm.trans isAlive) Bool.noConfusion
  exact
    { distinct := fun binder _ isAlive => absurd isAlive (dead binder)
      entered := fun binder isAlive => absurd isAlive (dead binder)
      used := fun id present => absurd (empty.2 id) present
      own := fun binder isAlive => absurd isAlive (dead binder)
      created := fun binder isAlive => absurd isAlive (dead binder) }

/-- The ids are sound before, between and after any actions exactly if each is permitted where it
is taken. -/
theorem sound_iff_permitted {nodeId : UInt32} {configuration : Option Configuration}
    {plugins : List UInt8 → Option (Runtime.Plugin Nat)}
    {transact : Nat → Int32 → List UInt8 → Transacted} {registry : Registry}
    (started : Registry.new nodeId configuration plugins transact = .ok registry)
    (actions : List BinderAction) :
    Foundation.Always step Sound (start registry) actions ↔
      Foundation.Meets step Permitted (start registry) actions :=
  Foundation.always_iff_meets (fun _ => Inv.sound) (fun _ _ _ => step_inv)
    (fun _ _ _ => permitted_of_sound) (start_inv started) actions

/-- The runtime of the first node starts. -/
theorem exists_started :
    ∃ registry, Registry.new 1 none (fun _ => none) (fun _ _ _ => .null) = .ok registry :=
  ⟨_, rfl⟩

/-- Two binders of the first node. -/
theorem sound_iff_permitted_two :
    ∃ registry, Registry.new 1 none (fun _ => none) (fun _ _ _ => .null) = .ok registry ∧
      (Foundation.Always step Sound (start registry) [.create, .create] ↔
        Foundation.Meets step Permitted (start registry) [.create, .create]) := by
  rcases exists_started with ⟨registry, started⟩
  exact ⟨registry, started, sound_iff_permitted started [.create, .create]⟩

/-- The destructor of a copy removes the id of the first binder, which is then not found. -/
theorem destroyed_copy :
    ∃ registry, Registry.new 1 none (fun _ => none) (fun _ _ _ => .null) = .ok registry ∧
      ¬Foundation.Always step Sound (start registry) [.create, .copy 0, .destroy 1] := by
  refine ⟨_, rfl, ?_⟩
  intro always
  have last := ((always.2 _ rfl).2 _ rfl).2 _ rfl
  have found := last.found 0 rfl rfl
  cases found

end Binders

end Mindroid
