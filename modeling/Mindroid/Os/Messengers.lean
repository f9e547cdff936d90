import Mindroid.Foundation.Tables
import Mindroid.Foundation.Transition

/-!
# The messengers of binders

A binder sends its transactions through a messenger, which has a plain reference to a binder.  A
copy of a binder with an executor shares the messenger of the original, and so its reference to
the original.  Nothing keeps the binder of a transaction that waits for its dispatch.
-/

set_option autoImplicit false

namespace Mindroid

open Foundation

/-- Where a messenger has its transactions executed. -/
inductive Messenger.Place where
  | looper (looper : Nat)
  | executor (executor : Nat)
  deriving DecidableEq

/-- A `Messenger` or an `ExecutorMessenger`. -/
structure Messenger where
  mBinder : Nat
  place : Messenger.Place

namespace Messenger

/-- A transaction that was sent. -/
structure Transaction where
  messenger : Nat
  oneWay : Bool

/-- All binders and messengers, and the transactions at each looper or executor.  `invoked` are
the binders whose `onTransact` was called, and whether they were alive. -/
structure Binders where
  alive : Nat → Bool
  mTarget : Nat → Nat
  made : Nat
  messengers : Nat → Messenger
  messengersMade : Nat
  pending : Place → List Transaction
  invoked : List (Nat × Bool)

inductive Action where
  /-- `Binder(looper)` or `Binder(executor)`. -/
  | creates (place : Place)
  /-- `Binder(const sp<Binder>&)`. -/
  | copies (original : Nat)
  | transacts (binder : Nat) (oneWay : Bool)
  | dispatches (place : Place) (index : Nat)
  /-- The looper quits, or the transaction is removed. -/
  | drops (place : Place) (index : Nat)
  /-- The last strong reference goes. -/
  | releases (binder : Nat)

namespace Binders

variable (binders : Binders)

/-- A new binder, which sends through the messenger. -/
def add (messenger : Nat) : Binders :=
  { binders with
    alive := Function.update binders.alive binders.made true
    mTarget := Function.update binders.mTarget binders.made messenger
    made := binders.made + 1 }

/-- A new binder with a messenger of its own. -/
def create (place : Place) : Binders :=
  let messenger := binders.messengersMade
  { binders with
    messengers := Function.update binders.messengers messenger ⟨binders.made, place⟩
    messengersMade := messenger + 1 }.add messenger

def copy (original : Nat) : Binders :=
  match (binders.messengers (binders.mTarget original)).place with
  | .looper looper => binders.create (.looper looper)
  | .executor _ => binders.add (binders.mTarget original)

/-- `mTarget->send(message)`. -/
def transact (binder : Nat) (oneWay : Bool) : Binders :=
  let messenger := binders.mTarget binder
  let place := (binders.messengers messenger).place
  { binders with
    pending := Function.update binders.pending place
      (binders.pending place ++ [⟨messenger, oneWay⟩]) }

def remove (place : Place) (index : Nat) : Binders :=
  { binders with
    pending := Function.update binders.pending place ((binders.pending place).eraseIdx index) }

/-- The binder on which `onTransact` is called for a transaction. -/
def target (transaction : Transaction) : Nat :=
  (binders.messengers transaction.messenger).mBinder

/-- `mBinder.onTransact(message)`. -/
def invoke (transaction : Transaction) : Binders :=
  let binder := binders.target transaction
  { binders with invoked := binders.invoked ++ [(binder, binders.alive binder)] }

/-- A looper takes the first of its transactions, an executor any. -/
def Takes (place : Place) (index : Nat) : Prop :=
  match place with
  | .looper _ => index = 0
  | .executor _ => True

instance (place : Place) (index : Nat) : Decidable (Takes place index) := by
  cases place with
  | looper looper => exact inferInstanceAs (Decidable (index = 0))
  | executor executor => exact inferInstanceAs (Decidable True)

def step : Action → Option Binders
  | .creates place => some (binders.create place)
  | .copies original =>
      if original < binders.made ∧ binders.alive original = true then
        some (binders.copy original)
      else
        none
  | .transacts binder oneWay =>
      if binder < binders.made ∧ binders.alive binder = true then
        some (binders.transact binder oneWay)
      else
        none
  | .dispatches place index =>
      if Takes place index then
        match (binders.pending place)[index]? with
        | none => none
        | some transaction => some ((binders.remove place index).invoke transaction)
      else
        none
  | .drops place index => some (binders.remove place index)
  | .releases binder =>
      if binder < binders.made ∧ binders.alive binder = true then
        some { binders with alive := Function.update binders.alive binder false }
      else
        none

def initial : Binders where
  alive := fun _ => false
  mTarget := fun _ => 0
  made := 0
  messengers := fun _ => ⟨0, .looper 0⟩
  messengersMade := 0
  pending := fun _ => []
  invoked := []

/-! ## Binders that are held -/

/-- `onTransact` was only called on binders that were alive. -/
def Safe : Prop :=
  ∀ call ∈ binders.invoked, call.2 = true

/-- A binder goes only when no transaction waits for it, and a copy is used only while the binder
that its messenger refers to is there. -/
def Held : Action → Prop
  | .transacts binder _ =>
      binders.alive (binders.messengers (binders.mTarget binder)).mBinder = true
  | .releases binder =>
      ∀ place, ∀ transaction ∈ binders.pending place, binders.target transaction ≠ binder
  | _ => True

/-- The binders of all transactions are alive. -/
structure Inv : Prop where
  pending : ∀ place, ∀ transaction ∈ binders.pending place,
    transaction.messenger < binders.messengersMade ∧
      binders.alive (binders.target transaction) = true
  sends : ∀ binder, binder < binders.made → binders.mTarget binder < binders.messengersMade
  refers : ∀ messenger, messenger < binders.messengersMade →
    (binders.messengers messenger).mBinder < binders.made
  safe : binders.Safe

variable {binders}

theorem initial_inv : initial.Inv where
  pending := fun _ _ member => absurd member List.not_mem_nil
  sends := fun _ below => absurd below (Nat.not_lt_zero _)
  refers := fun _ below => absurd below (Nat.not_lt_zero _)
  safe := fun _ member => absurd member List.not_mem_nil

theorem add_inv (inv : binders.Inv) {messenger : Nat} (known : messenger < binders.messengersMade) :
    (binders.add messenger).Inv where
  pending := by
    intro place transaction member
    have before := inv.pending place transaction member
    refine ⟨before.1, ?_⟩
    by_cases isNew : binders.target transaction = binders.made
    · exact (congrArg _ isNew).trans (Function.update_self _ _ _)
    · exact (Function.update_of_ne isNew _ _).trans before.2
  sends := by
    intro binder below
    cases Nat.lt_succ_iff_lt_or_eq.mp below with
    | inl old =>
        have kept : (binders.add messenger).mTarget binder = binders.mTarget binder :=
          Function.update_of_ne (Nat.ne_of_lt old) _ _
        rw [kept]
        exact inv.sends binder old
    | inr isNew =>
        have new : (binders.add messenger).mTarget binders.made = messenger :=
          Function.update_self _ _ _
        rw [isNew, new]
        exact known
  refers := fun messenger below => Nat.lt_succ_of_lt (inv.refers messenger below)
  safe := inv.safe

/-- A messenger that refers to the binder that is made next. -/
theorem create_inv (inv : binders.Inv) (place : Place) : (binders.create place).Inv where
  pending := by
    intro other transaction member
    have before := inv.pending other transaction member
    refine ⟨Nat.lt_succ_of_lt before.1, ?_⟩
    have kept : (binders.create place).target transaction = binders.target transaction :=
      field_update_of_ne _ _ Messenger.mBinder (Nat.ne_of_lt before.1)
    rw [kept]
    by_cases isNew : binders.target transaction = binders.made
    · exact (congrArg _ isNew).trans (Function.update_self _ _ _)
    · exact (Function.update_of_ne isNew _ _).trans before.2
  sends := by
    intro binder below
    cases Nat.lt_succ_iff_lt_or_eq.mp below with
    | inl old =>
        have kept : (binders.create place).mTarget binder = binders.mTarget binder :=
          Function.update_of_ne (Nat.ne_of_lt old) _ _
        rw [kept]
        exact Nat.lt_succ_of_lt (inv.sends binder old)
    | inr isNew =>
        have new : (binders.create place).mTarget binders.made = binders.messengersMade :=
          Function.update_self _ _ _
        rw [isNew, new]
        exact Nat.lt_succ_self _
  refers := by
    intro messenger below
    cases Nat.lt_succ_iff_lt_or_eq.mp below with
    | inl old =>
        have kept : ((binders.create place).messengers messenger).mBinder =
            (binders.messengers messenger).mBinder :=
          field_update_of_ne _ _ Messenger.mBinder (Nat.ne_of_lt old)
        rw [kept]
        exact Nat.lt_succ_of_lt (inv.refers messenger old)
    | inr isNew =>
        have new : ((binders.create place).messengers messenger).mBinder = binders.made := by
          rw [isNew]
          exact field_update_self _ _ _ Messenger.mBinder
        rw [new]
        exact Nat.lt_succ_self _
  safe := inv.safe

theorem copy_inv (inv : binders.Inv) {original : Nat} (known : original < binders.made) :
    (binders.copy original).Inv := by
  rw [copy]
  split
  · exact create_inv inv _
  · exact add_inv inv (inv.sends original known)

theorem transact_inv (inv : binders.Inv) {binder : Nat} (known : binder < binders.made)
    (oneWay : Bool)
    (held : binders.alive (binders.messengers (binders.mTarget binder)).mBinder = true) :
    (binders.transact binder oneWay).Inv where
  pending := by
    intro place transaction member
    by_cases same : place = (binders.messengers (binders.mTarget binder)).place
    · have waiting : (binders.transact binder oneWay).pending place =
          binders.pending place ++ [⟨binders.mTarget binder, oneWay⟩] := by
        rw [same]
        exact Function.update_self _ _ _
      rw [waiting, List.mem_append, List.mem_singleton] at member
      cases member with
      | inl before => exact inv.pending _ transaction before
      | inr isNew =>
          rw [isNew]
          exact ⟨inv.sends binder known, held⟩
    · have waiting : (binders.transact binder oneWay).pending place = binders.pending place :=
        Function.update_of_ne same _ _
      rw [waiting] at member
      exact inv.pending place transaction member
  sends := inv.sends
  refers := inv.refers
  safe := inv.safe

theorem remove_inv (inv : binders.Inv) (place : Place) (index : Nat) :
    (binders.remove place index).Inv where
  pending := by
    intro other transaction member
    by_cases same : other = place
    · have waiting : (binders.remove place index).pending other =
          (binders.pending place).eraseIdx index := by
        rw [same]
        exact Function.update_self _ _ _
      rw [waiting] at member
      exact inv.pending place transaction (List.mem_of_mem_eraseIdx member)
    · have waiting : (binders.remove place index).pending other = binders.pending other :=
        Function.update_of_ne same _ _
      rw [waiting] at member
      exact inv.pending other transaction member
  sends := inv.sends
  refers := inv.refers
  safe := inv.safe

theorem invoke_inv (inv : binders.Inv) {transaction : Transaction}
    (alive : binders.alive (binders.target transaction) = true) :
    (binders.invoke transaction).Inv where
  pending := inv.pending
  sends := inv.sends
  refers := inv.refers
  safe := by
    intro call member
    rw [invoke, List.mem_append, List.mem_singleton] at member
    cases member with
    | inl before => exact inv.safe call before
    | inr isNew =>
        rw [isNew]
        exact alive

theorem release_inv (inv : binders.Inv) {binder : Nat}
    (held : ∀ place, ∀ transaction ∈ binders.pending place,
      binders.target transaction ≠ binder) :
    { binders with alive := Function.update binders.alive binder false }.Inv where
  pending := by
    intro place transaction member
    have before := inv.pending place transaction member
    exact ⟨before.1, (Function.update_of_ne (held place transaction member) _ _).trans before.2⟩
  sends := inv.sends
  refers := inv.refers
  safe := inv.safe

/-- A step with the binders held keeps the binders of all transactions alive. -/
theorem step_inv {next : Binders} {action : Action} (inv : binders.Inv)
    (held : binders.Held action) (taken : binders.step action = some next) : next.Inv := by
  cases action with
  | creates place =>
      cases taken
      exact create_inv inv place
  | copies original =>
      rw [step] at taken
      split at taken
      case isTrue known =>
        cases taken
        exact copy_inv inv known.1
      case isFalse => cases taken
  | transacts binder oneWay =>
      rw [step] at taken
      split at taken
      case isTrue known =>
        cases taken
        exact transact_inv inv known.1 oneWay held
      case isFalse => cases taken
  | dispatches place index =>
      rw [step] at taken
      split at taken
      case isTrue =>
        split at taken
        case h_1 => cases taken
        case h_2 transaction found =>
          cases taken
          have member := List.mem_of_getElem? found
          exact invoke_inv (remove_inv inv place index) (inv.pending place transaction member).2
      case isFalse => cases taken
  | drops place index =>
      cases taken
      exact remove_inv inv place index
  | releases binder =>
      rw [step] at taken
      split at taken
      case isTrue =>
        cases taken
        exact release_inv inv held
      case isFalse => cases taken

/-! ## Binders that are not held -/

theorem takes_zero (place : Place) : Takes place 0 := by
  cases place with
  | looper => exact rfl
  | executor => exact trivial

/-- The first transaction of a looper or an executor can be dispatched. -/
theorem dispatches_first {place : Place} {transaction : Transaction} {rest : List Transaction}
    (waiting : binders.pending place = transaction :: rest) :
    binders.step (.dispatches place 0) =
      some ((binders.remove place 0).invoke transaction) := by
  rw [step, if_pos (takes_zero place), waiting]
  rfl

/-- A transaction for a binder that is gone gets its dispatch after those before it. -/
theorem unsafe_of_pending {place : Place} {front back : List Transaction}
    {transaction : Transaction} (waiting : binders.pending place = front ++ transaction :: back)
    (gone : binders.alive (binders.target transaction) = false) :
    ∃ actions last, runAll step binders actions = some last ∧ ¬last.Safe := by
  induction front generalizing binders with
  | nil =>
      refine ⟨[.dispatches place 0], (binders.remove place 0).invoke transaction, ?_, ?_⟩
      · rw [runAll, dispatches_first waiting]
        rfl
      · intro safe
        have alive := safe (binders.target transaction, binders.alive (binders.target transaction))
          (List.mem_append_right _ (List.mem_singleton.mpr rfl))
        exact Bool.false_ne_true (gone.symm.trans alive)
  | cons first front ih =>
      have later : ((binders.remove place 0).invoke first).pending place =
          front ++ transaction :: back := by
        change Function.update binders.pending place ((binders.pending place).eraseIdx 0) place = _
        rw [Function.update_self, waiting]
        rfl
      rcases ih later gone with ⟨actions, last, runs, isUnsafe⟩
      refine ⟨.dispatches place 0 :: actions, last, ?_, isUnsafe⟩
      rw [runAll, dispatches_first waiting]
      exact runs

theorem unsafe_of_not_held {next : Binders} {action : Action}
    (notHeld : ¬binders.Held action) (taken : binders.step action = some next) :
    ∃ actions last, runAll step next actions = some last ∧ ¬last.Safe := by
  cases action with
  | transacts binder oneWay =>
      rw [step] at taken
      split at taken
      case isTrue =>
        cases taken
        refine unsafe_of_pending (Function.update_self _ _ _) ?_
        exact Bool.eq_false_iff.mpr notHeld
      case isFalse => cases taken
  | releases binder =>
      rw [step] at taken
      split at taken
      case isTrue =>
        cases taken
        have waiting : ∃ place, ∃ transaction ∈ binders.pending place,
            binders.target transaction = binder := by
          by_contra none
          exact notHeld fun place transaction member same =>
            none ⟨place, transaction, member, same⟩
        rcases waiting with ⟨place, transaction, member, rfl⟩
        rcases List.append_of_mem member with ⟨front, back, split⟩
        exact unsafe_of_pending split (Function.update_self _ _ _)
      case isFalse => cases taken
  | creates => exact absurd trivial notHeld
  | copies => exact absurd trivial notHeld
  | dispatches => exact absurd trivial notHeld
  | drops => exact absurd trivial notHeld

theorem always_of_held {actions : List Action} (inv : binders.Inv)
    (held : Meets step Held binders actions) : Always step Safe binders actions := by
  induction actions generalizing binders with
  | nil => exact inv.safe
  | cons action actions ih =>
      refine ⟨inv.safe, fun next taken => ?_⟩
      have met := held next taken
      exact ih (step_inv inv met.1 taken) met.2

/-- In a run in which binders are held, `onTransact` is called on binders that are alive only.
The first step in which a binder is not held leads to a call on one that is not. -/
theorem safe_while_held (actions : List Action) :
    (Meets step Held initial actions → Always step Safe initial actions) ∧
      ∀ binders action next, runAll step initial actions = some binders →
        binders.step action = some next → ¬binders.Held action →
          ∃ later last, runAll step next later = some last ∧ ¬last.Safe :=
  ⟨always_of_held initial_inv, fun _ _ _ _ taken notHeld => unsafe_of_not_held notHeld taken⟩

/-- A binder is released while its one-way transaction waits at the looper. -/
theorem not_safe_after_release :
    ¬∀ actions, Always step Safe initial actions := by
  intro always
  have safe := always
    [.creates (.looper 0), .transacts 0 true, .releases 0, .dispatches (.looper 0) 0]
  have last := (((safe.2 _ rfl).2 _ rfl).2 _ rfl).2 _ rfl
  exact absurd (last (0, false) (List.mem_singleton.mpr rfl)) Bool.false_ne_true

end Binders

end Messenger

end Mindroid
