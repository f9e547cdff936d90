import Mathlib.Algebra.Group.Nat.Defs
import Mathlib.Data.Finset.Card
import Mindroid.Lang.Object

/-!
# The lifetime of an object

When an object is destroyed and its `mReference` freed depends on the references there are, on the
lifetime mode, and on whether there was a strong reference yet.  The counters agree with that as
long as they have room for the references.
-/

set_option autoImplicit false

namespace Mindroid

namespace Object

/-! ## When an object lives -/

/-- What the lifetime of an object depends on.  It is fresh as long as it has had no strong
reference since it was created or entered strong mode without one. -/
structure Lifetime where
  strong : Finset Nat
  weak : Finset Nat
  weakMode : Bool
  fresh : Bool
  alive : Bool

namespace Lifetime

def new : Lifetime where
  strong := ∅
  weak := ∅
  weakMode := false
  fresh := true
  alive := true

/-- The object is destroyed when its references become these: in weak mode with the last one of
either kind, in strong mode with the last strong one, or the last weak one while it is fresh. -/
def Ends (lifetime : Lifetime) (strong weak : Finset Nat) : Prop :=
  if lifetime.weakMode then
    (lifetime.strong ≠ ∅ ∨ lifetime.weak ≠ ∅) ∧ strong = ∅ ∧ weak = ∅
  else if lifetime.fresh then
    lifetime.weak ≠ ∅ ∧ strong = ∅ ∧ weak = ∅
  else
    lifetime.strong ≠ ∅ ∧ strong = ∅

instance (lifetime : Lifetime) (strong weak : Finset Nat) :
    Decidable (lifetime.Ends strong weak) := by
  unfold Ends
  infer_instance

/-- The references become these. -/
def become (lifetime : Lifetime) (strong weak : Finset Nat) : Lifetime :=
  { lifetime with
    strong := strong
    weak := weak
    fresh := lifetime.fresh && decide (strong = ∅)
    alive := lifetime.alive && !decide (lifetime.Ends strong weak) }

/-- A variable refers to the object from now on, or it does not. -/
def assign (referrers : Finset Nat) (self : Nat) (refers : Bool) : Finset Nat :=
  if refers then insert self referrers else referrers.erase self

def step (lifetime : Lifetime) : Action → Lifetime
  | .strongOfPointer self => lifetime.become (assign lifetime.strong self true) lifetime.weak
  | .strongOfStrong self other =>
      lifetime.become (assign lifetime.strong self (decide (other ∈ lifetime.strong))) lifetime.weak
  | .releaseStrong self => lifetime.become (assign lifetime.strong self false) lifetime.weak
  | .weakOfPointer self => lifetime.become lifetime.strong (assign lifetime.weak self true)
  | .weakOfStrong self other =>
      lifetime.become lifetime.strong (assign lifetime.weak self (decide (other ∈ lifetime.strong)))
  | .weakOfWeak self other =>
      lifetime.become lifetime.strong (assign lifetime.weak self (decide (other ∈ lifetime.weak)))
  | .releaseWeak self => lifetime.become lifetime.strong (assign lifetime.weak self false)
  | .get self weak =>
      lifetime.become
        (assign lifetime.strong self (decide (weak ∈ lifetime.weak) && lifetime.alive))
        lifetime.weak
  | .setObjectLifetime true => { lifetime with weakMode := true }
  | .setObjectLifetime false =>
      { lifetime with
        weakMode := false
        fresh := lifetime.fresh || lifetime.weakMode && decide (lifetime.strong = ∅) }

/-- What the program may do: it has the raw pointer to the object and changes its lifetime only
while it is alive, and makes no strong reference of the raw pointer in weak mode when the last one
is gone. -/
def Legal (lifetime : Lifetime) : Action → Prop
  | .strongOfPointer _ =>
      lifetime.alive = true ∧
        ¬(lifetime.weakMode = true ∧ lifetime.strong = ∅ ∧ lifetime.fresh = false)
  | .weakOfPointer _ => lifetime.alive = true
  | .setObjectLifetime _ => lifetime.alive = true
  | _ => True

/-- The strong counter can count another reference. -/
def StrongRoom (lifetime : Lifetime) : Prop :=
  lifetime.strong.card < 2 ^ 28

/-- The weak counter, which counts the references of both kinds, can count another one. -/
def WeakRoom (lifetime : Lifetime) : Prop :=
  lifetime.strong.card + lifetime.weak.card < 2 ^ 31 - 1

instance (lifetime : Lifetime) : Decidable lifetime.StrongRoom :=
  inferInstanceAs (Decidable (lifetime.strong.card < 2 ^ 28))

instance (lifetime : Lifetime) : Decidable lifetime.WeakRoom :=
  inferInstanceAs (Decidable (lifetime.strong.card + lifetime.weak.card < 2 ^ 31 - 1))

/-- There is room for the reference that is made. -/
def Fits (lifetime : Lifetime) : Action → Prop
  | .strongOfPointer _ => lifetime.StrongRoom ∧ lifetime.WeakRoom
  | .strongOfStrong _ other => other ∈ lifetime.strong → lifetime.StrongRoom ∧ lifetime.WeakRoom
  | .weakOfPointer _ => lifetime.WeakRoom
  | .weakOfStrong _ other => other ∈ lifetime.strong → lifetime.WeakRoom
  | .weakOfWeak _ other => other ∈ lifetime.weak → lifetime.WeakRoom
  | .get _ weak => weak ∈ lifetime.weak → lifetime.StrongRoom ∧ lifetime.WeakRoom
  | _ => True

end Lifetime

/-! ## Counters -/

/-- An `int32_t` that counts. -/
def counter (count : Nat) : Int32 :=
  Int32.ofNat count

section Counters

variable {count : Nat}

theorem counter_zero_le (room : count < 2 ^ 31) : 0 ≤ counter count := by
  rw [counter, Int32.le_iff_toInt_le, Int32.toInt_ofNat_of_lt room]
  exact Int.natCast_nonneg count

theorem counter_one_le (room : count + 1 < 2 ^ 31) : 1 ≤ counter (count + 1) := by
  rw [counter, Int32.le_iff_toInt_le, Int32.toInt_ofNat_of_lt room]
  exact Int.ofNat_le.mpr (Nat.le_add_left 1 count)

theorem counter_pos (room : count + 1 < 2 ^ 31) : 0 < counter (count + 1) := by
  rw [counter, Int32.lt_iff_toInt_lt, Int32.toInt_ofNat_of_lt room]
  exact Int.ofNat_lt.mpr (Nat.succ_pos count)

theorem counter_inj {other : Nat} (room : count < 2 ^ 31) (otherRoom : other < 2 ^ 31) :
    counter count = counter other ↔ count = other := by
  rw [counter, counter, ← Int32.toInt_inj, Int32.toInt_ofNat_of_lt room,
    Int32.toInt_ofNat_of_lt otherRoom]
  exact Int.ofNat_inj

theorem counter_one : counter 1 = 1 := rfl

theorem counter_initial : counter (2 ^ 28) = INITIAL_STRONG_REFERENCE_VALUE := by decide

theorem counter_ne_one (room : count + 1 < 2 ^ 31) (some : count ≠ 0) :
    counter (count + 1) ≠ 1 := by
  rw [Ne, ← counter_one, counter_inj room (by decide)]
  exact fun same => some (Nat.succ.inj same)

theorem counter_ne_initial (room : count < 2 ^ 28) :
    counter count ≠ INITIAL_STRONG_REFERENCE_VALUE := by
  rw [Ne, ← counter_initial, counter_inj (room.trans (by decide)) (by decide)]
  exact room.ne

theorem counter_inc (count : Nat) : counter count + 1 = counter (count + 1) :=
  (Int32.ofNat_add count 1).symm

theorem counter_dec (count : Nat) : counter (count + 1) - 1 = counter count := by
  rw [← counter_inc]
  exact Int32.add_sub_cancel _ _

end Counters

/-- The strong counter of an object that is alive. -/
def strongCounter (fresh : Bool) : Nat → Int32
  | 0 => if fresh then INITIAL_STRONG_REFERENCE_VALUE else 0
  | count + 1 => counter (count + 1)

/-- The `mReference` of an object that is alive and has so many references. -/
@[simps]
def held (weakMode fresh : Bool) (strong weak : Nat) : WeakReferenceImpl where
  mStrongReferenceCounter := strongCounter fresh strong
  mWeakReferenceCounter := counter (strong + weak)
  mFlags := if weakMode then OBJECT_LIFETIME_WEAK_REFERENCE else OBJECT_LIFETIME_STRONG_REFERENCE
  destroyed := 0
  freed := 0

/-- The `mReference` of an object that was destroyed while there are weak references. -/
@[simps]
def dead (weak : Nat) : WeakReferenceImpl where
  mStrongReferenceCounter := 0
  mWeakReferenceCounter := counter weak
  mFlags := OBJECT_LIFETIME_STRONG_REFERENCE
  destroyed := 1
  freed := 0

/-- The object is destroyed and its `mReference` is freed. -/
def Gone (reference : WeakReferenceImpl) : Prop :=
  reference.destroyed = 1 ∧ reference.freed = 1

@[simp] theorem mask_strong :
    OBJECT_LIFETIME_STRONG_REFERENCE &&& OBJECT_LIFETIME_MASK =
      OBJECT_LIFETIME_STRONG_REFERENCE := by
  decide

@[simp] theorem mask_weak :
    OBJECT_LIFETIME_WEAK_REFERENCE &&& OBJECT_LIFETIME_MASK = OBJECT_LIFETIME_WEAK_REFERENCE := by
  decide

@[simp] theorem strong_or_weak :
    OBJECT_LIFETIME_STRONG_REFERENCE ||| OBJECT_LIFETIME_WEAK_REFERENCE =
      OBJECT_LIFETIME_WEAK_REFERENCE := by
  decide

@[simp] theorem weak_or_weak :
    OBJECT_LIFETIME_WEAK_REFERENCE ||| OBJECT_LIFETIME_WEAK_REFERENCE =
      OBJECT_LIFETIME_WEAK_REFERENCE := by
  decide

@[simp] theorem weak_and_strong :
    OBJECT_LIFETIME_WEAK_REFERENCE &&& OBJECT_LIFETIME_STRONG_REFERENCE =
      OBJECT_LIFETIME_STRONG_REFERENCE := by
  decide

@[simp] theorem weak_ne_strong :
    OBJECT_LIFETIME_WEAK_REFERENCE ≠ OBJECT_LIFETIME_STRONG_REFERENCE := by
  decide

namespace WeakReferenceImpl

variable {weakMode fresh : Bool} {strong weak count : Nat} {reference : WeakReferenceImpl}

@[simp] theorem mReference_held :
    (held weakMode fresh strong weak).mReference = .ok (held weakMode fresh strong weak) := rfl

@[simp] theorem held_isStrong : (held weakMode fresh strong weak).isStrong = !weakMode := by
  cases weakMode <;> simp [isStrong]

theorem incWeakReference_eq (there : reference.freed = 0)
    (counts : reference.mWeakReferenceCounter = counter count) (room : count < 2 ^ 31) :
    reference.incWeakReference =
      .ok { reference with mWeakReferenceCounter := counter (count + 1) } := by
  simp [incWeakReference, access, assert, there, counts, counter_zero_le room, counter_inc, bind,
    Except.bind, pure, Except.pure]

/-- The weak counter is lowered, but not to zero. -/
theorem decWeakReference_eq (there : reference.freed = 0)
    (counts : reference.mWeakReferenceCounter = counter (count + 1)) (some : count ≠ 0)
    (room : count + 1 < 2 ^ 31) :
    reference.decWeakReference =
      .ok { reference with mWeakReferenceCounter := counter count } := by
  have notOne := counter_ne_one room some
  simp [decWeakReference, access, assert, there, counts, counter_one_le room, notOne, counter_dec,
    bind, Except.bind, pure, Except.pure]

theorem incWeakReference_held (room : strong + weak + 1 < 2 ^ 31) :
    (held weakMode fresh strong weak).incWeakReference =
      .ok (held weakMode fresh strong (weak + 1)) :=
  incWeakReference_eq rfl rfl (Nat.lt_of_succ_lt room)

theorem incWeakReference_dead (room : weak + 1 < 2 ^ 31) :
    (dead weak).incWeakReference = .ok (dead (weak + 1)) :=
  incWeakReference_eq rfl rfl (Nat.lt_of_succ_lt room)

/-- A reference goes that is not the last one. -/
theorem decWeakReference_held (room : strong + weak + 1 < 2 ^ 31) (others : strong + weak ≠ 0) :
    (held weakMode fresh strong (weak + 1)).decWeakReference =
      .ok (held weakMode fresh strong weak) :=
  decWeakReference_eq rfl rfl others room

theorem decWeakReference_dead (room : weak + 1 < 2 ^ 31) (others : weak ≠ 0) :
    (dead (weak + 1)).decWeakReference = .ok (dead weak) :=
  decWeakReference_eq rfl rfl others room

/-- The last weak reference goes with the object, in weak mode and while the object is fresh. -/
theorem decWeakReference_last (ends : weakMode = true ∨ fresh = true) :
    ∃ reference, (held weakMode fresh 0 1).decWeakReference = .ok reference ∧ Gone reference := by
  cases weakMode with
  | true => cases fresh <;> exact ⟨_, rfl, rfl, rfl⟩
  | false =>
      obtain rfl : fresh = true := ends.resolve_left Bool.false_ne_true
      exact ⟨_, rfl, rfl, rfl⟩

/-- The last weak reference goes after the object. -/
theorem decWeakReference_after :
    ∃ reference, (dead 1).decWeakReference = .ok reference ∧ Gone reference :=
  ⟨_, rfl, rfl, rfl⟩

/-- A strong reference is counted by both counters. -/
theorem incStrongReference_eq (more : strong ≠ 0 ∨ fresh = true) (strongRoom : strong < 2 ^ 28)
    (weakRoom : strong + weak + 1 < 2 ^ 31) :
    (held weakMode fresh strong weak).incStrongReference =
      .ok (held weakMode false (strong + 1) weak) := by
  have counted : strong + (weak + 1) = strong + 1 + weak := by omega
  cases strong with
  | zero =>
      obtain rfl : fresh = true := more.resolve_left (· rfl)
      simp only [incStrongReference, mReference_held, incWeakReference_held weakRoom, bind,
        Except.bind]
      simp only [held, counted]
      rfl
  | succ others =>
      have some : 0 < counter (others + 1) := counter_pos (Nat.lt_trans strongRoom (by decide))
      have notFresh := counter_ne_initial strongRoom
      simp [incStrongReference, incWeakReference_held weakRoom, strongCounter, assert, notFresh,
        counter_inc, some, counted, bind, Except.bind, pure, Except.pure]
      rfl

/-- A strong reference goes that is not the last one. -/
theorem decStrongReference_eq (others : strong ≠ 0) (room : strong + weak + 1 < 2 ^ 31) :
    (held weakMode fresh (strong + 1) weak).decStrongReference =
      .ok (held weakMode fresh strong weak) := by
  have strongRoom : strong + 1 < 2 ^ 31 := by omega
  have notOne := counter_ne_one strongRoom others
  have lowered := @decWeakReference_eq (strong + weak)
    { held weakMode fresh (strong + 1) weak with
      mStrongReferenceCounter := strongCounter fresh (strong + 1) - 1 } rfl
    (congrArg counter (Nat.add_right_comm strong 1 weak)) (by omega) room
  simp [decStrongReference, assert, strongCounter, counter_one_le strongRoom, notOne, bind,
    Except.bind] at lowered ⊢
  rw [lowered, counter_dec]
  cases strong with
  | zero => exact absurd rfl others
  | succ strong => rfl

/-- The last strong reference goes in weak mode. -/
theorem decStrongReference_weakMode (room : weak + 1 < 2 ^ 31) (some : weak ≠ 0) :
    (held true fresh 1 weak).decStrongReference = .ok (held true false 0 weak) := by
  have one : strongCounter fresh 1 = 1 := rfl
  have lowered := @decWeakReference_eq weak
    { held true fresh 1 weak with mStrongReferenceCounter := 0 } rfl
    (congrArg counter (Nat.add_comm 1 weak)) some room
  simp [decStrongReference, assert, one, isStrong, bind, Except.bind] at lowered ⊢
  rw [lowered]
  simp [held, strongCounter]

/-- The last strong reference goes with the object. -/
theorem decStrongReference_last (room : weak + 1 < 2 ^ 31) (some : weak ≠ 0) :
    (held false fresh 1 weak).decStrongReference = .ok (dead weak) := by
  have one : strongCounter fresh 1 = 1 := rfl
  have lowered := @decWeakReference_eq weak
    { held false fresh 1 weak with mStrongReferenceCounter := 0, destroyed := 1 } rfl
    (congrArg counter (Nat.add_comm 1 weak)) some room
  have notFresh : 0 ≠ INITIAL_STRONG_REFERENCE_VALUE := by decide
  simp [decStrongReference, assert, one, isStrong, destroy, mReference, access, notFresh,
    weak_ne_strong.symm, bind, Except.bind, pure, Except.pure] at lowered ⊢
  rw [lowered]
  rfl

/-- The last reference goes with the object. -/
theorem decStrongReference_only :
    ∃ reference, (held weakMode fresh 1 0).decStrongReference = .ok reference ∧
      Gone reference := by
  cases weakMode <;> cases fresh <;> exact ⟨_, rfl, rfl, rfl⟩

theorem tryIncStrongReference_eq (more : strong ≠ 0 ∨ fresh = true ∨ weakMode = true)
    (strongRoom : strong < 2 ^ 28) (weakRoom : strong + weak + 1 < 2 ^ 31) :
    (held weakMode fresh strong weak).tryIncStrongReference =
      .ok (true, held weakMode false (strong + 1) weak) := by
  have counted : strong + (weak + 1) = strong + 1 + weak := by omega
  simp only [tryIncStrongReference, incWeakReference_held weakRoom, bind, Except.bind]
  cases strong with
  | zero =>
      have incremented : INITIAL_STRONG_REFERENCE_VALUE + 1 - INITIAL_STRONG_REFERENCE_VALUE =
          counter 1 := by decide
      cases fresh with
      | true =>
          have fresh : ¬INITIAL_STRONG_REFERENCE_VALUE ≤ 0 := by decide
          have nonnegative : 0 ≤ INITIAL_STRONG_REFERENCE_VALUE := by decide
          simp [strongCounter, assert, fresh, nonnegative, incremented, counted, pure, Except.pure]
          rfl
      | false =>
          obtain rfl : weakMode = true := by simpa using more
          simp [strongCounter, assert, counted, pure, Except.pure]
          rfl
  | succ others =>
      have some : 0 < counter (others + 1) := counter_pos (Nat.lt_trans strongRoom (by decide))
      have notFresh := counter_ne_initial strongRoom
      have nonnegative : 0 ≤ counter (others + 1) := Int32.le_of_lt some
      simp [strongCounter, assert, some, nonnegative, notFresh, counter_inc, counted, pure,
        Except.pure]
      rfl

/-- The object is not revived. -/
theorem tryIncStrongReference_dead (some : weak ≠ 0) (room : weak + 1 < 2 ^ 31) :
    (dead weak).tryIncStrongReference = .ok (false, dead weak) := by
  simp only [tryIncStrongReference, incWeakReference_dead room, bind, Except.bind]
  have lowered := decWeakReference_dead room some
  simp [assert, isStrong, lowered, pure, Except.pure]

/-- Entering strong mode without a strong reference makes an object fresh again. -/
theorem setObjectLifetime_eq (weakMode fresh mode : Bool) {strong : Nat} (weak : Nat)
    (room : strong < 2 ^ 31) :
    (held weakMode fresh strong weak).setObjectLifetime
        (if mode then OBJECT_LIFETIME_WEAK_REFERENCE else OBJECT_LIFETIME_STRONG_REFERENCE) =
      .ok (held mode (if mode then fresh else fresh || weakMode && decide (strong = 0))
        strong weak) := by
  have strong_ne_weak := weak_ne_strong.symm
  cases mode with
  | true =>
      cases weakMode <;>
        simp [setObjectLifetime, mReference, access, held, bind, Except.bind, pure, Except.pure]
  | false =>
      cases weakMode with
      | false => simp [setObjectLifetime, strong_ne_weak, bind, Except.bind, pure, Except.pure]
      | true =>
          have initial : 0 ≤ INITIAL_STRONG_REFERENCE_VALUE := by decide
          cases strong with
          | zero =>
              cases fresh <;>
                simp [setObjectLifetime, mReference, access, assert, held, strongCounter, initial,
                  strong_ne_weak, bind, Except.bind, pure, Except.pure]
          | succ others =>
              have some : 0 < counter (others + 1) := counter_pos room
              have nonnegative : 0 ≤ counter (others + 1) := Int32.le_of_lt some
              have nonzero : counter (others + 1) ≠ 0 := (Int32.ne_of_lt some).symm
              simp [setObjectLifetime, mReference, access, assert, held, strongCounter, nonnegative,
                nonzero, strong_ne_weak, bind, Except.bind, pure, Except.pure]

end WeakReferenceImpl

/-! ## The counters agree with the lifetime -/

/-- The `mReference` of an object with this lifetime. -/
def Counts (lifetime : Lifetime) (reference : WeakReferenceImpl) : Prop :=
  if lifetime.alive then
    reference = held lifetime.weakMode lifetime.fresh lifetime.strong.card lifetime.weak.card
  else if lifetime.weak = ∅ then
    Gone reference
  else
    reference = dead lifetime.weak.card

/-- What every lifetime is like. -/
structure Lifetime.Valid (lifetime : Lifetime) : Prop where
  fresh : lifetime.fresh = true → lifetime.strong = ∅
  strong : lifetime.weakMode = false → lifetime.alive = true → lifetime.strong = ∅ →
    lifetime.fresh = true
  dead : lifetime.alive = false → lifetime.strong = ∅

/-- The references are those of the lifetime, and the counters agree with it. -/
structure Agrees (lifetime : Lifetime) (references : References) : Prop where
  sps : references.sps = lifetime.strong
  wps : references.wps = lifetime.weak
  counts : Counts lifetime references.reference
  room : lifetime.strong.card + lifetime.weak.card < 2 ^ 31

namespace Lifetime

variable {lifetime : Lifetime} {strong weak : Finset Nat}

theorem Ends.unreferenced (ends : lifetime.Ends strong weak) : strong = ∅ := by
  unfold Ends at ends
  split at ends
  · exact ends.2.1
  · split at ends
    · exact ends.2.1
    · exact ends.2

/-- References that stay the same do not end a lifetime. -/
theorem not_ends_same (lifetime : Lifetime) : ¬lifetime.Ends lifetime.strong lifetime.weak := by
  unfold Ends
  split
  · rintro ⟨some, noStrong, noWeak⟩
    exact some.elim (· noStrong) (· noWeak)
  · split
    · exact fun ends => ends.1 ends.2.2
    · exact fun ends => ends.1 ends.2

theorem Valid.fresh_same (valid : lifetime.Valid) :
    (lifetime.fresh && decide (lifetime.strong = ∅)) = lifetime.fresh := by
  cases fresh : lifetime.fresh with
  | true => exact decide_eq_true (valid.fresh fresh)
  | false => rfl

theorem become_same (valid : lifetime.Valid) :
    lifetime.become lifetime.strong lifetime.weak = lifetime := by
  simp [become, valid.fresh_same, not_ends_same]

/-- As long as there are references, a change of the weak ones does not end a lifetime. -/
theorem not_ends_weak (some : lifetime.strong ≠ ∅ ∨ weak ≠ ∅) :
    ¬lifetime.Ends lifetime.strong weak := by
  intro ends
  have none := ends.unreferenced
  have weaks := some.resolve_left (· none)
  unfold Ends at ends
  split at ends
  · exact weaks ends.2.2
  · split at ends
    · exact weaks ends.2.2
    · exact ends.1 none

theorem Valid.become (valid : lifetime.Valid)
    (dead : lifetime.alive = false → strong = ∅) : (lifetime.become strong weak).Valid where
  fresh := by simp [Lifetime.become]
  strong := by
    intro mode alive none
    simp only [Lifetime.become, Bool.and_eq_true, Bool.not_eq_true', decide_eq_false_iff_not] at *
    refine ⟨?_, decide_eq_true none⟩
    by_contra notFresh
    refine alive.2 ?_
    have some : lifetime.strong ≠ ∅ := fun gone => notFresh (valid.strong mode alive.1 gone)
    simp [Ends, mode, notFresh, some, none]
  dead := by
    intro gone
    simp only [Lifetime.become, Bool.and_eq_false_iff, Bool.not_eq_false', decide_eq_true_eq]
      at gone
    exact gone.elim dead Ends.unreferenced

theorem Valid.step (valid : lifetime.Valid) {action : Action} (legal : lifetime.Legal action) :
    (lifetime.step action).Valid := by
  have erased (self : Nat) : lifetime.alive = false → assign lifetime.strong self false = ∅ := by
    intro gone
    simp [assign, valid.dead gone]
  cases action with
  | strongOfPointer self => exact valid.become fun gone => by simp [legal.1] at gone
  | strongOfStrong self other =>
      refine valid.become fun gone => ?_
      simp [valid.dead gone, assign]
  | releaseStrong self => exact valid.become (erased self)
  | weakOfPointer self => exact valid.become valid.dead
  | weakOfStrong self other => exact valid.become valid.dead
  | weakOfWeak self other => exact valid.become valid.dead
  | releaseWeak self => exact valid.become valid.dead
  | get self weak =>
      refine valid.become fun gone => ?_
      simp [gone, valid.dead gone, assign]
  | setObjectLifetime weakMode =>
      cases weakMode with
      | true =>
          exact { fresh := valid.fresh, strong := by simp [Lifetime.step], dead := valid.dead }
      | false =>
          refine { fresh := fun fresh => ?_, strong := fun _ alive none => ?_, dead := valid.dead }
          · simp only [Lifetime.step, Bool.or_eq_true, Bool.and_eq_true, decide_eq_true_eq] at fresh
            exact fresh.elim valid.fresh And.right
          · simp only [Lifetime.step] at alive none
            cases mode : lifetime.weakMode with
            | true => simp [Lifetime.step, mode, none]
            | false => simp [Lifetime.step, mode, valid.strong mode alive none]

end Lifetime

section Steps

open Lifetime WeakReferenceImpl

variable {lifetime : Lifetime} {reference : WeakReferenceImpl} {self : Nat}

theorem counts_alive (alive : lifetime.alive = true) :
    Counts lifetime reference ↔ reference =
      held lifetime.weakMode lifetime.fresh lifetime.strong.card lifetime.weak.card := by
  rw [Counts, if_pos alive]

theorem counts_dead (gone : lifetime.alive = false) (some : lifetime.weak ≠ ∅) :
    Counts lifetime reference ↔ reference = dead lifetime.weak.card := by
  rw [Counts, if_neg (by simp [gone]), if_neg some]

theorem counts_gone (gone : lifetime.alive = false) (none : lifetime.weak = ∅) :
    Counts lifetime reference ↔ Gone reference := by
  rw [Counts, if_neg (by simp [gone]), if_pos none]

/-- A strong reference is assigned, after it was counted. -/
theorem assign_counted (alive : lifetime.alive = true)
    (room : lifetime.strong.card + lifetime.weak.card + 1 < 2 ^ 31) :
    ∃ reference', (if self ∈ lifetime.strong then
        (held lifetime.weakMode false (lifetime.strong.card + 1)
          lifetime.weak.card).decStrongReference
      else
        .ok (held lifetime.weakMode false (lifetime.strong.card + 1) lifetime.weak.card)) =
          .ok reference' ∧
      Counts (lifetime.become (assign lifetime.strong self true) lifetime.weak) reference' := by
  have some : assign lifetime.strong self true ≠ ∅ := Finset.insert_ne_empty _ _
  have still : (lifetime.become (assign lifetime.strong self true) lifetime.weak).alive = true := by
    have notEnds : ¬lifetime.Ends (assign lifetime.strong self true) lifetime.weak :=
      fun ends => some ends.unreferenced
    simp [become, alive, notEnds]
  have notFresh :
      (lifetime.become (assign lifetime.strong self true) lifetime.weak).fresh = false := by
    simp [become, some]
  by_cases member : self ∈ lifetime.strong
  · have nonzero : lifetime.strong.card ≠ 0 := Finset.card_ne_zero_of_mem member
    refine ⟨_, by rw [if_pos member]; exact decStrongReference_eq nonzero room, ?_⟩
    rw [counts_alive still, notFresh]
    simp [become, assign, Finset.insert_eq_self.mpr member]
  · refine ⟨_, if_neg member, ?_⟩
    rw [counts_alive still, notFresh]
    simp [become, assign, Finset.card_insert_of_notMem member]

/-- The last strong reference goes. -/
theorem release_last_strong (alive : lifetime.alive = true) (notFresh : lifetime.fresh = false)
    (one : lifetime.strong.card = 1) (counts : Counts lifetime reference)
    (room : 1 + lifetime.weak.card < 2 ^ 31) :
    ∃ reference', reference.decStrongReference = .ok reference' ∧
      Counts (lifetime.become ∅ lifetime.weak) reference' := by
  have some : lifetime.strong ≠ ∅ := Finset.card_ne_zero.mp (by omega) |>.ne_empty
  have counted := (counts_alive alive).mp counts
  rw [notFresh, one] at counted
  subst counted
  by_cases weaks : lifetime.weak = ∅
  · rw [weaks, Finset.card_empty]
    rcases @decStrongReference_only lifetime.weakMode false with ⟨after, releases, gone⟩
    refine ⟨after, releases, ?_⟩
    have ends : lifetime.Ends ∅ ∅ := by simp [Ends, notFresh, some]
    have ended : (lifetime.become ∅ ∅).alive = false := by simp [become, ends]
    exact (counts_gone ended rfl).mpr gone
  · have nonzero : lifetime.weak.card ≠ 0 := Finset.card_ne_zero.mpr
      (Finset.nonempty_iff_ne_empty.mpr weaks)
    cases mode : lifetime.weakMode with
    | true =>
        refine ⟨_, decStrongReference_weakMode (by omega) nonzero, ?_⟩
        rw [counts_alive (by simp [become, alive, Ends, mode, weaks])]
        simp [become, notFresh, mode]
    | false =>
        refine ⟨_, decStrongReference_last (by omega) nonzero, ?_⟩
        have ended : (lifetime.become ∅ lifetime.weak).alive = false := by
          simp [become, Ends, mode, notFresh, some]
        exact (counts_dead ended weaks).mpr rfl

theorem alive_of_strong (valid : lifetime.Valid) (member : self ∈ lifetime.strong) :
    lifetime.alive = true := by
  by_contra gone
  exact Finset.ne_empty_of_mem member (valid.dead (by simpa using gone))

/-- A strong reference goes. -/
theorem release_strong (valid : lifetime.Valid) (member : self ∈ lifetime.strong)
    (counts : Counts lifetime reference)
    (room : lifetime.strong.card + lifetime.weak.card < 2 ^ 31) :
    ∃ reference', reference.decStrongReference = .ok reference' ∧
      Counts (lifetime.become (assign lifetime.strong self false) lifetime.weak) reference' := by
  have alive := alive_of_strong valid member
  have notFresh : lifetime.fresh = false := by
    by_contra fresh
    exact Finset.ne_empty_of_mem member (valid.fresh (by simpa using fresh))
  have one := Finset.card_erase_add_one member
  have erased : assign lifetime.strong self false = lifetime.strong.erase self := rfl
  by_cases others : lifetime.strong.erase self = ∅
  · rw [others, Finset.card_empty, Nat.zero_add] at one
    rw [← one] at room
    rw [erased, others]
    exact release_last_strong alive notFresh one.symm counts room
  · have nonzero : (lifetime.strong.erase self).card ≠ 0 := Finset.card_ne_zero.mpr
      (Finset.nonempty_iff_ne_empty.mpr others)
    have notEnds : ¬lifetime.Ends (lifetime.strong.erase self) lifetime.weak :=
      fun ends => others ends.unreferenced
    rw [counts_alive alive, notFresh, ← one] at counts
    subst counts
    refine ⟨_, decStrongReference_eq nonzero (by omega), ?_⟩
    rw [erased, counts_alive (by simp [become, alive, notEnds])]
    simp [become, notFresh]

/-- A variable does not refer to the object any more. -/
theorem assign_null (valid : lifetime.Valid) (counts : Counts lifetime reference)
    (room : lifetime.strong.card + lifetime.weak.card < 2 ^ 31) :
    ∃ reference', (if self ∈ lifetime.strong then reference.decStrongReference
        else .ok reference) = .ok reference' ∧
      Counts (lifetime.become (assign lifetime.strong self false) lifetime.weak) reference' := by
  by_cases member : self ∈ lifetime.strong
  · rw [if_pos member]
    exact release_strong valid member counts room
  · have same : assign lifetime.strong self false = lifetime.strong := by
      simp [assign, Finset.erase_eq_of_notMem member]
    exact ⟨reference, if_neg member, by rwa [same, become_same valid]⟩

/-- The change of a weak reference that leaves others. -/
theorem counts_weak {weak : Finset Nat} (valid : lifetime.Valid)
    (some : lifetime.strong ≠ ∅ ∨ weak ≠ ∅) (alive : lifetime.alive = true) :
    Counts (lifetime.become lifetime.strong weak)
      (held lifetime.weakMode lifetime.fresh lifetime.strong.card weak.card) := by
  have still : (lifetime.become lifetime.strong weak).alive = true := by
    simp [become, alive, not_ends_weak some]
  rw [counts_alive still]
  simp [become, valid.fresh_same]

theorem counts_weak_dead {weak : Finset Nat} (some : weak ≠ ∅) (gone : lifetime.alive = false) :
    Counts (lifetime.become lifetime.strong weak) (dead weak.card) := by
  have still : (lifetime.become lifetime.strong weak).alive = false := by simp [become, gone]
  exact (counts_dead still some).mpr rfl

/-- A weak reference is counted and assigned, where the counters have the same shape for any number
of weak references. -/
theorem assign_shaped {shape : Nat → WeakReferenceImpl}
    (increments : (shape lifetime.weak.card).incWeakReference =
      .ok (shape (lifetime.weak.card + 1)))
    (decrements : self ∈ lifetime.weak →
      (shape (lifetime.weak.card + 1)).decWeakReference = .ok (shape lifetime.weak.card))
    (counts : ∀ {weak : Finset Nat}, weak ≠ ∅ →
      Counts (lifetime.become lifetime.strong weak) (shape weak.card)) :
    ∃ counted reference', (shape lifetime.weak.card).incWeakReference = .ok counted ∧
      (if self ∈ lifetime.weak then counted.decWeakReference else .ok counted) =
        .ok reference' ∧
      Counts (lifetime.become lifetime.strong (assign lifetime.weak self true)) reference' := by
  have counted := counts (Finset.insert_ne_empty self lifetime.weak)
  by_cases member : self ∈ lifetime.weak
  · rw [Finset.insert_eq_self.mpr member] at counted
    have same : assign lifetime.weak self true = lifetime.weak := Finset.insert_eq_self.mpr member
    refine ⟨_, _, increments, by rw [if_pos member]; exact decrements member, ?_⟩
    rw [same]
    exact counted
  · rw [Finset.card_insert_of_notMem member] at counted
    exact ⟨_, _, increments, if_neg member, counted⟩

/-- A weak reference is counted and assigned. -/
theorem assign_weak (valid : lifetime.Valid) (counts : Counts lifetime reference)
    (there : lifetime.alive = true ∨ lifetime.weak ≠ ∅)
    (room : lifetime.strong.card + lifetime.weak.card + 1 < 2 ^ 31) :
    ∃ counted reference', reference.incWeakReference = .ok counted ∧
      (if self ∈ lifetime.weak then counted.decWeakReference else .ok counted) =
        .ok reference' ∧
      Counts (lifetime.become lifetime.strong (assign lifetime.weak self true)) reference' := by
  cases alive : lifetime.alive with
  | true =>
      rw [(counts_alive alive).mp counts]
      refine assign_shaped (incWeakReference_held room) (fun member => ?_)
        (fun some => counts_weak valid (.inr some) alive)
      have weaks := Finset.card_ne_zero_of_mem member
      exact decWeakReference_held room (by omega)
  | false =>
      have weaks := there.resolve_left (by simp [alive])
      have few : lifetime.weak.card + 1 < 2 ^ 31 := by omega
      rw [(counts_dead alive weaks).mp counts]
      exact assign_shaped (incWeakReference_dead few)
        (fun member => decWeakReference_dead few (Finset.card_ne_zero_of_mem member))
        (fun some => counts_weak_dead some alive)

/-- A weak reference goes. -/
theorem release_weak (valid : lifetime.Valid) (member : self ∈ lifetime.weak)
    (counts : Counts lifetime reference)
    (room : lifetime.strong.card + lifetime.weak.card < 2 ^ 31) :
    ∃ reference', reference.decWeakReference = .ok reference' ∧
      Counts (lifetime.become lifetime.strong (assign lifetime.weak self false)) reference' := by
  have some : lifetime.weak ≠ ∅ := Finset.ne_empty_of_mem member
  have one := Finset.card_erase_add_one member
  have erased : assign lifetime.weak self false = lifetime.weak.erase self := rfl
  rw [erased]
  cases alive : lifetime.alive with
  | true =>
      rw [counts_alive alive, ← one] at counts
      subst counts
      by_cases last : lifetime.strong.card + (lifetime.weak.erase self).card = 0
      · obtain ⟨noStrong, noWeak⟩ := Nat.add_eq_zero_iff.mp last
        have ends : lifetime.weakMode = true ∨ lifetime.fresh = true := by
          cases mode : lifetime.weakMode with
          | true => exact .inl rfl
          | false => exact .inr (valid.strong mode alive (Finset.card_eq_zero.mp noStrong))
        rcases decWeakReference_last ends with ⟨after, releases, gone⟩
        rw [noStrong, noWeak]
        refine ⟨after, releases, ?_⟩
        rw [Finset.card_eq_zero] at noStrong noWeak
        have finished : lifetime.Ends lifetime.strong (lifetime.weak.erase self) := by
          rcases ends with mode | fresh
          · simp [Ends, mode, some, noStrong, noWeak]
          · simp [Ends, fresh, some, noStrong, noWeak]
        have ended :
            (lifetime.become lifetime.strong (lifetime.weak.erase self)).alive = false := by
          simp [become, finished]
        exact (counts_gone ended noWeak).mpr gone
      · refine ⟨_, decWeakReference_held (by omega) last, counts_weak valid ?_ alive⟩
        by_contra none
        rw [not_or, not_not, not_not] at none
        exact last (by rw [none.1, none.2]; rfl)
  | false =>
      rw [counts_dead alive some, ← one] at counts
      subst counts
      by_cases others : lifetime.weak.erase self = ∅
      · rw [others, Finset.card_empty]
        rcases decWeakReference_after with ⟨after, releases, gone⟩
        have still : (lifetime.become lifetime.strong ∅).alive = false := by simp [become, alive]
        exact ⟨after, releases, (counts_gone still rfl).mpr gone⟩
      · have nonzero : (lifetime.weak.erase self).card ≠ 0 := Finset.card_ne_zero.mpr
          (Finset.nonempty_iff_ne_empty.mpr others)
        exact ⟨_, decWeakReference_dead (by omega) nonzero, counts_weak_dead others alive⟩

/-- A variable does not refer to the object weakly any more. -/
theorem assign_weak_null (valid : lifetime.Valid) (counts : Counts lifetime reference)
    (room : lifetime.strong.card + lifetime.weak.card < 2 ^ 31) :
    ∃ reference', (if self ∈ lifetime.weak then reference.decWeakReference
        else .ok reference) = .ok reference' ∧
      Counts (lifetime.become lifetime.strong (assign lifetime.weak self false)) reference' := by
  by_cases member : self ∈ lifetime.weak
  · rw [if_pos member]
    exact release_weak valid member counts room
  · have same : assign lifetime.weak self false = lifetime.weak := by
      simp [assign, Finset.erase_eq_of_notMem member]
    exact ⟨reference, if_neg member, by rwa [same, become_same valid]⟩

variable {references : References}

/-- There is room for a reference that is made, and a reference that goes leaves room. -/
theorem room_assign {referrers : Finset Nat} {refers : Bool} {others : Nat}
    (before : referrers.card + others < 2 ^ 31)
    (room : refers = true → referrers.card + others < 2 ^ 31 - 1) :
    (assign referrers self refers).card + others < 2 ^ 31 := by
  cases refers with
  | true =>
      have most : (assign referrers self true).card ≤ referrers.card + 1 :=
        Finset.card_insert_le self referrers
      have more := room rfl
      omega
  | false =>
      have most : (assign referrers self false).card ≤ referrers.card := Finset.card_erase_le
      omega

/-- The strong references after a change, with the counters that agree with it. -/
theorem agrees_strong (agrees : Agrees lifetime references) {refers : Bool}
    {reference' : WeakReferenceImpl} (room : refers = true → lifetime.WeakRoom)
    (counts : Counts (lifetime.become (assign lifetime.strong self refers) lifetime.weak)
      reference') :
    Agrees (lifetime.become (assign lifetime.strong self refers) lifetime.weak)
      { references with reference := reference', sps := assign references.sps self refers } where
  sps := by rw [agrees.sps]; rfl
  wps := agrees.wps
  counts := counts
  room := room_assign agrees.room room

/-- The weak references after a change, with the counters that agree with it. -/
theorem agrees_weak (agrees : Agrees lifetime references) {refers : Bool}
    {reference' : WeakReferenceImpl} (room : refers = true → lifetime.WeakRoom)
    (counts : Counts (lifetime.become lifetime.strong (assign lifetime.weak self refers))
      reference') :
    Agrees (lifetime.become lifetime.strong (assign lifetime.weak self refers))
      { references with reference := reference', wps := assign references.wps self refers } where
  sps := agrees.sps
  wps := by rw [agrees.wps]; rfl
  counts := counts
  room := by
    have before := agrees.room
    rw [Nat.add_comm] at before ⊢
    refine room_assign before fun refers => ?_
    rw [Nat.add_comm]
    exact room refers

theorem room_of_weakRoom (room : lifetime.WeakRoom) :
    lifetime.strong.card + lifetime.weak.card + 1 < 2 ^ 31 := by
  unfold WeakRoom at room
  omega

theorem dropStrong_eq (agrees : Agrees lifetime references) :
    references.dropStrong self reference =
      if self ∈ lifetime.strong then reference.decStrongReference else .ok reference := by
  rw [References.dropStrong, agrees.sps]

theorem dropWeak_eq (agrees : Agrees lifetime references) :
    references.dropWeak self reference =
      if self ∈ lifetime.weak then reference.decWeakReference else .ok reference := by
  rw [References.dropWeak, agrees.wps]

theorem assignStrong_agrees (agrees : Agrees lifetime references)
    (alive : lifetime.alive = true) (more : lifetime.strong ≠ ∅ ∨ lifetime.fresh = true)
    (strongRoom : lifetime.StrongRoom) (weakRoom : lifetime.WeakRoom) :
    ∃ references', references.assignStrong self true = .ok references' ∧
      Agrees (lifetime.become (assign lifetime.strong self true) lifetime.weak) references' := by
  have room := room_of_weakRoom weakRoom
  have counts := (counts_alive alive).mp agrees.counts
  have counted : references.reference.incStrongReference = _ := counts ▸ incStrongReference_eq
    (more.imp_left fun some => Finset.card_ne_zero.mpr (Finset.nonempty_iff_ne_empty.mpr some))
    strongRoom room
  rcases @assign_counted lifetime self alive room with ⟨reference', assigned, counts'⟩
  refine ⟨_, ?_, agrees_strong agrees (fun _ => weakRoom) counts'⟩
  simp only [References.assignStrong, dropStrong_eq agrees, if_true, bind, Except.bind, counted,
    assigned]
  rfl

theorem releaseStrong_agrees (valid : lifetime.Valid) (agrees : Agrees lifetime references) :
    ∃ references', references.releaseStrong self = .ok references' ∧
      Agrees (lifetime.become (assign lifetime.strong self false) lifetime.weak) references' := by
  rcases @assign_null lifetime _ self valid agrees.counts agrees.room with
    ⟨reference', assigned, counts'⟩
  refine ⟨_, ?_, agrees_strong agrees (by simp) counts'⟩
  simp only [References.releaseStrong, dropStrong_eq agrees, bind, Except.bind, assigned]
  rfl

/-- A null pointer is assigned. -/
theorem assignStrong_null :
    references.assignStrong self false = references.releaseStrong self :=
  rfl

/-- A weak reference is assigned that is counted in one way or another. -/
theorem assignWeak_agrees (valid : lifetime.Valid) (agrees : Agrees lifetime references)
    (there : lifetime.alive = true ∨ lifetime.weak ≠ ∅) (room : lifetime.WeakRoom)
    {increment : WeakReferenceImpl → Except Failure WeakReferenceImpl}
    (increments : increment references.reference = references.reference.incWeakReference) :
    ∃ references', references.assignWeak self (some increment) = .ok references' ∧
      Agrees (lifetime.become lifetime.strong (assign lifetime.weak self true)) references' := by
  rcases @assign_weak lifetime _ self valid agrees.counts there (room_of_weakRoom room) with
    ⟨counted, reference', counts, assigned, counts'⟩
  refine ⟨_, ?_, agrees_weak agrees (fun _ => room) counts'⟩
  simp only [References.assignWeak, dropWeak_eq agrees, bind, Except.bind, increments, counts,
    assigned]
  rfl

theorem releaseWeak_agrees (valid : lifetime.Valid) (agrees : Agrees lifetime references) :
    ∃ references', references.releaseWeak self = .ok references' ∧
      Agrees (lifetime.become lifetime.strong (assign lifetime.weak self false)) references' := by
  rcases @assign_weak_null lifetime _ self valid agrees.counts agrees.room with
    ⟨reference', assigned, counts'⟩
  refine ⟨_, ?_, agrees_weak agrees (by simp) counts'⟩
  simp only [References.releaseWeak, dropWeak_eq agrees, bind, Except.bind, assigned]
  rfl

theorem assignWeak_null :
    references.assignWeak self none = references.releaseWeak self :=
  rfl

/-- An object that is alive leads to its `mReference`. -/
theorem createWeakReference_eq (alive : lifetime.alive = true)
    (counts : Counts lifetime reference) :
    References.createWeakReference reference = reference.incWeakReference := by
  rw [(counts_alive alive).mp counts]
  rfl

/-- Null is assigned when `get` finds nothing. -/
theorem get_nothing {weak : Nat}
    (nothing : weak ∈ references.wps →
      references.reference.tryIncStrongReference = .ok (false, references.reference)) :
    references.get self weak = references.releaseStrong self := by
  by_cases member : weak ∈ references.wps
  · simp only [References.get, if_pos member, bind, Except.bind, nothing member]
    rfl
  · simp only [References.get, if_neg member, bind, Except.bind]
    rfl

/-- `get` returns the object if it is alive and the weak reference is not null. -/
theorem get_agrees (valid : lifetime.Valid) (agrees : Agrees lifetime references) {weak : Nat}
    (rooms : weak ∈ lifetime.weak → lifetime.StrongRoom ∧ lifetime.WeakRoom) :
    ∃ references', references.get self weak = .ok references' ∧
      Agrees (lifetime.step (.get self weak)) references' := by
  by_cases found : weak ∈ lifetime.weak ∧ lifetime.alive = true
  · obtain ⟨member, alive⟩ := found
    obtain ⟨strongRoom, weakRoom⟩ := rooms member
    have room := room_of_weakRoom weakRoom
    have counts := (counts_alive alive).mp agrees.counts
    have more : lifetime.strong.card ≠ 0 ∨ lifetime.fresh = true ∨ lifetime.weakMode = true := by
      by_contra none
      simp only [not_or, not_not, Bool.not_eq_true] at none
      have fresh := valid.strong none.2.2 alive (Finset.card_eq_zero.mp none.1)
      simp [none.2.1] at fresh
    have counted : references.reference.tryIncStrongReference = _ :=
      counts ▸ tryIncStrongReference_eq more strongRoom room
    rcases @assign_counted lifetime self alive room with ⟨reference', assigned, counts'⟩
    have step : lifetime.step (.get self weak) =
        lifetime.become (assign lifetime.strong self true) lifetime.weak := by
      simp [Lifetime.step, member, alive]
    refine ⟨_, ?_, step ▸ agrees_strong agrees (fun _ => weakRoom) counts'⟩
    simp only [References.get, agrees.wps, if_pos member, dropStrong_eq agrees, bind, Except.bind,
      counted, assigned]
    rfl
  · have step : lifetime.step (.get self weak) =
        lifetime.become (assign lifetime.strong self false) lifetime.weak := by
      rw [not_and, Bool.not_eq_true] at found
      by_cases member : weak ∈ lifetime.weak
      · simp [Lifetime.step, member, found member]
      · simp [Lifetime.step, member]
    rw [step, get_nothing]
    · exact releaseStrong_agrees valid agrees
    · intro member
      rw [agrees.wps] at member
      have gone : lifetime.alive = false := by simpa [member] using found
      rw [(counts_dead gone (Finset.ne_empty_of_mem member)).mp agrees.counts]
      have room := room_of_weakRoom (rooms member).2
      exact tryIncStrongReference_dead (Finset.card_ne_zero_of_mem member) (by omega)

theorem setObjectLifetime_agrees (agrees : Agrees lifetime references)
    (alive : lifetime.alive = true) (weakMode : Bool) :
    ∃ references', references.step (.setObjectLifetime weakMode) = .ok references' ∧
      Agrees (lifetime.step (.setObjectLifetime weakMode)) references' := by
  have counts := (counts_alive alive).mp agrees.counts
  have few : lifetime.strong.card < 2 ^ 31 :=
    lt_of_le_of_lt (Nat.le_add_right _ _) agrees.room
  have set := setObjectLifetime_eq lifetime.weakMode lifetime.fresh weakMode
    lifetime.weak.card few
  rw [← counts] at set
  refine ⟨_, by simp only [References.step, set, bind, Except.bind]; rfl, ?_⟩
  cases weakMode with
  | true =>
      have still : (lifetime.step (.setObjectLifetime true)).alive = true := alive
      exact { agrees with counts := (counts_alive still).mpr rfl }
  | false =>
      have still : (lifetime.step (.setObjectLifetime false)).alive = true := alive
      exact { agrees with counts := (counts_alive still).mpr (by simp [Lifetime.step]) }

/-- Every step that is legal and for which there is room succeeds, and the counters agree with the
lifetime after it. -/
theorem step_agrees (valid : lifetime.Valid) (agrees : Agrees lifetime references)
    {action : Action} (legal : lifetime.Legal action) (fits : lifetime.Fits action) :
    ∃ references', references.step action = .ok references' ∧
      Agrees (lifetime.step action) references' := by
  cases action with
  | strongOfPointer self =>
      obtain ⟨alive, notLast⟩ := legal
      refine assignStrong_agrees agrees alive ?_ fits.1 fits.2
      by_contra neither
      rw [not_or, not_not, Bool.not_eq_true] at neither
      refine notLast ⟨?_, neither.1, neither.2⟩
      by_contra mode
      have fresh := valid.strong (by simpa using mode) alive neither.1
      simp [neither.2] at fresh
  | strongOfStrong self other =>
      by_cases member : other ∈ lifetime.strong
      · have some : lifetime.strong ≠ ∅ := Finset.ne_empty_of_mem member
        rcases @assignStrong_agrees lifetime self references agrees
          (alive_of_strong valid member) (.inl some) (fits member).1 (fits member).2 with
          ⟨references', assigned, agrees'⟩
        exact ⟨references', by simpa [References.step, agrees.sps, member] using assigned,
          by simpa [Lifetime.step, member] using agrees'⟩
      · rcases @releaseStrong_agrees lifetime self references valid agrees with
          ⟨references', released, agrees'⟩
        exact ⟨references', by
          simpa [References.step, agrees.sps, member, assignStrong_null] using released,
          by simpa [Lifetime.step, member] using agrees'⟩
  | releaseStrong self => exact releaseStrong_agrees valid agrees
  | weakOfPointer self =>
      exact assignWeak_agrees valid agrees (.inl legal) fits
        (createWeakReference_eq legal agrees.counts)
  | weakOfStrong self other =>
      by_cases member : other ∈ lifetime.strong
      · have alive := alive_of_strong valid member
        rcases @assignWeak_agrees lifetime self references valid agrees (.inl alive)
          (fits member) _ (createWeakReference_eq alive agrees.counts) with
          ⟨references', assigned, agrees'⟩
        exact ⟨references', by simpa [References.step, agrees.sps, member] using assigned,
          by simpa [Lifetime.step, member] using agrees'⟩
      · rcases @releaseWeak_agrees lifetime self references valid agrees with
          ⟨references', released, agrees'⟩
        exact ⟨references', by
          simpa [References.step, agrees.sps, member, assignWeak_null] using released,
          by simpa [Lifetime.step, member] using agrees'⟩
  | weakOfWeak self other =>
      by_cases member : other ∈ lifetime.weak
      · rcases @assignWeak_agrees lifetime self references valid agrees
          (.inr (Finset.ne_empty_of_mem member)) (fits member) _ rfl with
          ⟨references', assigned, agrees'⟩
        exact ⟨references', by simpa [References.step, agrees.wps, member] using assigned,
          by simpa [Lifetime.step, member] using agrees'⟩
      · rcases @releaseWeak_agrees lifetime self references valid agrees with
          ⟨references', released, agrees'⟩
        exact ⟨references', by
          simpa [References.step, agrees.wps, member, assignWeak_null] using released,
          by simpa [Lifetime.step, member] using agrees'⟩
  | releaseWeak self => exact releaseWeak_agrees valid agrees
  | get self weak => exact get_agrees valid agrees fits
  | setObjectLifetime weakMode => exact setObjectLifetime_agrees agrees legal weakMode

end Steps

/-! ## Runs -/

section Runs

/-- Every action meets a condition when it is done. -/
def Lifetime.Always (condition : Lifetime → Action → Prop) : Lifetime → List Action → Prop
  | _, [] => True
  | lifetime, action :: actions =>
      condition lifetime action ∧ Always condition (lifetime.step action) actions

theorem always_append (condition : Lifetime → Action → Prop) (lifetime : Lifetime)
    (actions : List Action) (action : Action) :
    lifetime.Always condition (actions ++ [action]) ↔
      lifetime.Always condition actions ∧
        condition (actions.foldl Lifetime.step lifetime) action := by
  induction actions generalizing lifetime with
  | nil => exact ⟨fun always => ⟨trivial, always.1⟩, fun always => ⟨always.2, trivial⟩⟩
  | cons first actions ih =>
      simp only [List.cons_append, Lifetime.Always, ih, List.foldl_cons, and_assoc]

/-- What is to be seen of an object and its references: it is destroyed at most once, at the end of
its lifetime, and its `mReference` is freed at most once, when there are no references then. -/
structure Lives (lifetime : Lifetime) (references : References) : Prop where
  sps : references.sps = lifetime.strong
  wps : references.wps = lifetime.weak
  destroyed : references.reference.destroyed = if lifetime.alive then 0 else 1
  freed : references.reference.freed =
    if lifetime.alive = false ∧ references.sps = ∅ ∧ references.wps = ∅ then 1 else 0

theorem Agrees.lives {lifetime : Lifetime} {references : References} (valid : lifetime.Valid)
    (agrees : Agrees lifetime references) : Lives lifetime references := by
  refine ⟨agrees.sps, agrees.wps, ?_, ?_⟩
  · cases alive : lifetime.alive with
    | true => rw [(counts_alive alive).mp agrees.counts]; rfl
    | false =>
        by_cases none : lifetime.weak = ∅
        · exact ((counts_gone alive none).mp agrees.counts).1
        · rw [(counts_dead alive none).mp agrees.counts]; rfl
  · rw [agrees.sps, agrees.wps]
    cases alive : lifetime.alive with
    | true => rw [(counts_alive alive).mp agrees.counts]; simp
    | false =>
        by_cases none : lifetime.weak = ∅
        · rw [((counts_gone alive none).mp agrees.counts).2]
          simp [none, valid.dead alive]
        · rw [(counts_dead alive none).mp agrees.counts]
          simp [none]

theorem run_agrees {lifetime : Lifetime} {references : References} (valid : lifetime.Valid)
    (agrees : Agrees lifetime references) {actions : List Action}
    (legal : lifetime.Always Lifetime.Legal actions)
    (fits : lifetime.Always Lifetime.Fits actions) :
    ∃ references', actions.foldlM References.step references = .ok references' ∧
      (actions.foldl Lifetime.step lifetime).Valid ∧
      Agrees (actions.foldl Lifetime.step lifetime) references' := by
  induction actions generalizing lifetime references with
  | nil => exact ⟨references, rfl, valid, agrees⟩
  | cons action actions ih =>
      rcases step_agrees valid agrees legal.1 fits.1 with ⟨next, steps, agreesNext⟩
      rcases ih (valid.step legal.1) agreesNext legal.2 fits.2 with ⟨last, runs, rest⟩
      exact ⟨last, by rw [List.foldlM_cons, steps]; exact runs, rest⟩

theorem valid_new : Lifetime.new.Valid where
  fresh := fun _ => rfl
  strong := fun _ _ _ => rfl
  dead := fun _ => rfl

theorem agrees_new : Agrees Lifetime.new References.new where
  sps := rfl
  wps := rfl
  counts := rfl
  room := by decide

/-- As long as there is room in the counters, every sequence of legal actions succeeds, and the
object lives as long as it should.  `wp::get` finds it if and only if it is not destroyed. -/
theorem references_lifetime (actions : List Action)
    (legal : Lifetime.new.Always Lifetime.Legal actions)
    (fits : Lifetime.new.Always Lifetime.Fits actions) :
    ∃ references, actions.foldlM References.step References.new = .ok references ∧
      Lives (actions.foldl Lifetime.step Lifetime.new) references ∧
      ∀ self weak, weak ∈ references.wps →
        (actions.foldl Lifetime.step Lifetime.new).Fits (.get self weak) →
        ∃ references', references.get self weak = .ok references' ∧
          (self ∈ references'.sps ↔ references.reference.destroyed = 0) := by
  rcases run_agrees valid_new agrees_new legal fits with ⟨references, runs, valid, agrees⟩
  have lives := agrees.lives valid
  refine ⟨references, runs, lives, fun self weak member rooms => ?_⟩
  rcases @get_agrees _ self references valid agrees weak rooms with ⟨references', gets, agrees'⟩
  refine ⟨references', gets, ?_⟩
  rw [agrees'.sps, lives.destroyed]
  rw [agrees.wps] at member
  cases alive : (actions.foldl Lifetime.step Lifetime.new).alive with
  | true => simp [Lifetime.step, Lifetime.become, Lifetime.assign, member, alive]
  | false => simp [Lifetime.step, Lifetime.become, Lifetime.assign, alive]

/-- A weak reference outlives the only strong one and finds nothing. -/
theorem references_lifetime_instance :
    ∃ references, [.strongOfPointer 0, .weakOfStrong 0 0, .releaseStrong 0].foldlM References.step
        References.new = .ok references ∧
      (references.reference.destroyed = 1 ∧ references.reference.freed = 0) ∧
      ∃ references', references.get 1 0 = .ok references' ∧ 1 ∉ references'.sps := by
  rcases references_lifetime [.strongOfPointer 0, .weakOfStrong 0 0, .releaseStrong 0]
      ⟨⟨rfl, by decide⟩, trivial, trivial, trivial⟩
      ⟨⟨by decide, by decide⟩, fun _ => by decide, trivial, trivial⟩ with
    ⟨references, runs, lives, gets⟩
  have weak : 0 ∈ references.wps := by rw [lives.wps]; decide
  rcases gets 1 0 weak (fun _ => by decide) with ⟨references', found, iff⟩
  have destroyed : references.reference.destroyed = 1 := by rw [lives.destroyed]; decide
  refine ⟨references, runs, ⟨destroyed, ?_⟩, references', found, fun member => ?_⟩
  · rw [lives.freed, if_neg (fun gone => by rw [gone.2.2] at weak; cases weak)]
  · rw [iff, destroyed] at member
    cases member

/-! ## Too many references -/

/-- Strong references from the raw pointer. -/
def pointers (count : Nat) : List Action :=
  (List.range count).map .strongOfPointer

theorem pointers_succ (count : Nat) :
    pointers (count + 1) = pointers count ++ [.strongOfPointer count] := by
  simp [pointers, List.range_succ]

theorem lifetime_pointers (count : Nat) :
    (pointers count).foldl Lifetime.step Lifetime.new =
      { strong := Finset.range count, weak := ∅, weakMode := false, fresh := decide (count = 0),
        alive := true } := by
  induction count with
  | zero => rfl
  | succ count ih =>
      rw [pointers_succ, List.foldl_append, ih, Finset.range_add_one]
      simp [Lifetime.step, Lifetime.become, Lifetime.assign, Lifetime.Ends]

theorem legal_pointers (count : Nat) :
    Lifetime.new.Always Lifetime.Legal (pointers count) := by
  induction count with
  | zero => trivial
  | succ count ih =>
      rw [pointers_succ, always_append, lifetime_pointers]
      exact ⟨ih, rfl, by simp⟩

theorem fits_pointers {count : Nat} (few : count ≤ 2 ^ 28) :
    Lifetime.new.Always Lifetime.Fits (pointers count) := by
  induction count with
  | zero => trivial
  | succ count ih =>
      rw [pointers_succ, always_append, lifetime_pointers]
      refine ⟨ih (Nat.le_of_succ_le few), ?_, ?_⟩
      · simp only [Lifetime.StrongRoom, Finset.card_range]
        omega
      · simp only [Lifetime.WeakRoom, Finset.card_range, Finset.card_empty]
        omega

/-- The strong counter starts again at one. -/
theorem strong_overflow : ∃ reference after,
    (held false false (2 ^ 28) 0).incStrongReference = .ok reference ∧
      reference.decStrongReference = .ok after ∧ after.destroyed = 1 :=
  ⟨_, _, rfl, rfl, rfl⟩

/-- Another strong reference is made, and one goes. -/
def tooMany (count : Nat) : List Action :=
  pointers (count + 1) ++ [.releaseStrong 0]

theorem legal_tooMany (count : Nat) : Lifetime.new.Always Lifetime.Legal (tooMany count) := by
  rw [tooMany, always_append]
  exact ⟨legal_pointers _, trivial⟩

/-- The object should live. -/
theorem alive_tooMany {count : Nat} (some : count ≠ 0) :
    ((tooMany count).foldl Lifetime.step Lifetime.new).alive = true := by
  have member : count ∈ (Finset.range (count + 1)).erase 0 :=
    Finset.mem_erase.mpr ⟨some, Finset.self_mem_range_succ count⟩
  have left : (Finset.range (count + 1)).erase 0 ≠ ∅ := Finset.ne_empty_of_mem member
  rw [tooMany, List.foldl_append, lifetime_pointers]
  have notEnds : ¬Lifetime.Ends
      { strong := Finset.range (count + 1), weak := ∅, weakMode := false,
        fresh := decide (count + 1 = 0), alive := true } ((Finset.range (count + 1)).erase 0) ∅ :=
    fun ends => left ends.unreferenced
  change (true && !decide (Lifetime.Ends _ ((Finset.range (count + 1)).erase 0) ∅)) = true
  rw [decide_eq_false notEnds]
  rfl

theorem destroyed_tooMany {count : Nat} (full : count = 2 ^ 28) {references : References}
    (runs : (tooMany count).foldlM References.step References.new = .ok references) :
    references.reference.destroyed = 1 := by
  rcases run_agrees valid_new agrees_new (legal_pointers count) (fits_pointers full.le) with
    ⟨filled, fills, _, agrees⟩
  rw [lifetime_pointers] at agrees
  have notFresh : decide (count = 0) = false := by
    rw [full]
    rfl
  have counts : filled.reference = held false false (2 ^ 28) 0 := by
    have held := (counts_alive rfl).mp agrees.counts
    rwa [notFresh, Finset.card_range, Finset.card_empty, full] at held
  rcases strong_overflow with ⟨reference, after, increments, decrements, destroyed⟩
  have absent : count ∉ filled.sps := by simp [agrees.sps]
  have member : 0 ∈ insert count filled.sps := by
    rw [agrees.sps]
    exact Finset.mem_insert_of_mem (Finset.mem_range.mpr (by omega))
  have made : filled.assignStrong count true =
      .ok { filled with reference := reference, sps := insert count filled.sps } := by
    simp only [References.assignStrong, References.dropStrong, if_true, if_neg absent, counts,
      increments, bind, Except.bind]
    rfl
  have released : References.releaseStrong
      { filled with reference := reference, sps := insert count filled.sps } 0 =
        .ok { filled with reference := after, sps := (insert count filled.sps).erase 0 } := by
    simp only [References.releaseStrong, References.dropStrong, if_pos member, decrements, bind,
      Except.bind]
    rfl
  have steps : [Action.strongOfPointer count, .releaseStrong 0].foldlM References.step filled =
      .ok { filled with reference := after, sps := (insert count filled.sps).erase 0 } := by
    simp only [List.foldlM_cons, List.foldlM_nil, References.step, made, released, bind,
      Except.bind]
    rfl
  rw [tooMany, pointers_succ, List.append_assoc, List.foldlM_append, fills] at runs
  have same := Except.ok.inj (steps.symm.trans runs)
  rw [← same]
  exact destroyed

/-- Without room in the strong counter the object is destroyed while there are references. -/
theorem too_many_references : ¬∀ actions, Lifetime.new.Always Lifetime.Legal actions →
    ∃ references, actions.foldlM References.step References.new = .ok references ∧
      Lives (actions.foldl Lifetime.step Lifetime.new) references := by
  intro claim
  obtain ⟨count, full⟩ : ∃ count, count = 2 ^ 28 := ⟨_, rfl⟩
  rcases claim (tooMany count) (legal_tooMany count) with ⟨references, runs, lives⟩
  have destroyed := lives.destroyed
  rw [destroyed_tooMany full runs, alive_tooMany (by omega)] at destroyed
  cases destroyed

end Runs

end Object

end Mindroid
