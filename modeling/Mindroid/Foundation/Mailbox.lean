import Mathlib.Data.List.Perm.Basic
import Mindroid.Foundation.MailHistory

/-!
# Mailboxes with due times

A mailbox keeps numbered messages in the order of their due times.  One reader dequeues the first
message when it is due, dispatches it and finishes it.  Messages can be removed, and the mailbox
can be made to quit, which drops what waits.
-/

set_option autoImplicit false

namespace Foundation

/-- What the reader of a mailbox does with the message of a number. -/
inductive Mailbox.Reader where
  | idle
  | dequeued (number : Nat)
  | dispatching (number : Nat)

/-- A mailbox.  Messages that wait have a number and a due time. -/
structure Mailbox where
  waiting : List (Nat × Nat)
  reader : Mailbox.Reader
  time : Nat
  sends : Nat
  quitting : Bool
  history : List Mailbox.Event

namespace Mailbox

/-- The reader has the message. -/
def Reader.Holds (number : Nat) : Reader → Prop
  | .idle => False
  | .dequeued other => other = number
  | .dispatching other => other = number

inductive Step (mailbox : Mailbox) : Mailbox → Prop where
  | waits {time : Nat} (later : mailbox.time ≤ time) : Step mailbox { mailbox with time }
  | sends {due : Nat} {front back : List (Nat × Nat)} (isOpen : mailbox.quitting = false)
      (split : mailbox.waiting = front ++ back) (first : due = 0 → front = [])
      (dueBefore : due ≠ 0 → ∀ other ∈ front, other.2 ≤ due)
      (dueAfter : due ≠ 0 → ∀ other ∈ back, due < other.2) :
      Step mailbox
        { mailbox with
          waiting := front ++ (mailbox.sends, due) :: back
          sends := mailbox.sends + 1
          history := .sent mailbox.sends due :: mailbox.history }
  | dequeues {number due : Nat} {rest : List (Nat × Nat)} (isOpen : mailbox.quitting = false)
      (isIdle : mailbox.reader = .idle) (split : mailbox.waiting = (number, due) :: rest)
      (isDue : due ≤ mailbox.time) :
      Step mailbox
        { mailbox with
          waiting := rest
          reader := .dequeued number
          history := .dequeued number :: mailbox.history }
  | dispatches {number : Nat} (dequeued : mailbox.reader = .dequeued number) :
      Step mailbox
        { mailbox with
          reader := .dispatching number
          history := .dispatched number mailbox.time :: mailbox.history }
  | finishes {number : Nat} (dispatching : mailbox.reader = .dispatching number) :
      Step mailbox
        { mailbox with reader := .idle, history := .finished number :: mailbox.history }
  | removes {kept gone : List (Nat × Nat)} (sublist : kept.Sublist mailbox.waiting)
      (all : (gone ++ kept).Perm mailbox.waiting) :
      Step mailbox
        { mailbox with
          waiting := kept
          history := (gone.map fun message => .removed message.1) ++ mailbox.history }
  | quits :
      Step mailbox
        { mailbox with
          waiting := []
          quitting := true
          history := .quit true ::
            (mailbox.waiting.map fun message => .dropped message.1) ++ mailbox.history }
  | refusesToQuit : Step mailbox { mailbox with history := .quit false :: mailbox.history }

/-- A message that was sent for the same time is behind those sent before it. -/
def Ahead (earlier later : Nat × Nat) : Prop :=
  earlier.2 ≤ later.2 ∧ (earlier.2 = later.2 → 0 < earlier.2 → earlier.1 < later.1)

/-- The history agrees with the messages that wait and with the reader. -/
structure Inv (mailbox : Mailbox) : Prop where
  legal : Legal mailbox.history
  waits : ∀ number due, (number, due) ∈ mailbox.waiting ↔
    standing mailbox.history number = some .queued ∧ .sent number due ∈ mailbox.history
  reads : ∀ number, mailbox.reader.Holds number ↔
    standing mailbox.history number = some .dispatching
  undelivered : ∀ number, mailbox.reader = .dequeued number →
    (∀ time, .dispatched number time ∉ mailbox.history) ∧
      ∀ due, .sent number due ∈ mailbox.history → due ≤ mailbox.time
  delivered : ∀ number, mailbox.reader = .dispatching number →
    ∃ time, .dispatched number time ∈ mailbox.history
  numbers : ∀ number due, .sent number due ∈ mailbox.history → number < mailbox.sends
  ordered : mailbox.waiting.Pairwise Ahead
  distinct : (mailbox.waiting.map Prod.fst).Nodup
  quit : .quit true ∈ mailbox.history → mailbox.quitting = true
  drained : mailbox.quitting = true → mailbox.waiting = []
  dropped : ∀ number, .dropped number ∈ mailbox.history → mailbox.quitting = true
/-! ## One step -/

section Steps

variable {mailbox mailbox' : Mailbox}

theorem Inv.queued (inv : mailbox.Inv) {message : Nat × Nat} (member : message ∈ mailbox.waiting) :
    standing mailbox.history message.1 = some .queued :=
  ((inv.waits message.1 message.2).mp member).1

/-- The next number is not used yet. -/
theorem Inv.unsent (inv : mailbox.Inv) : standing mailbox.history mailbox.sends = none := by
  cases stood : standing mailbox.history mailbox.sends with
  | none => rfl
  | some stands =>
      rcases inv.legal.exists_sent stood with ⟨due, sent⟩
      exact absurd (inv.numbers _ _ sent) (Nat.lt_irrefl _)

theorem Inv.sends (inv : mailbox.Inv) {due : Nat} {front back : List (Nat × Nat)}
    (isOpen : mailbox.quitting = false) (split : mailbox.waiting = front ++ back)
    (first : due = 0 → front = []) (dueBefore : due ≠ 0 → ∀ other ∈ front, other.2 ≤ due)
    (dueAfter : due ≠ 0 → ∀ other ∈ back, due < other.2) :
    Inv { mailbox with
      waiting := front ++ (mailbox.sends, due) :: back
      sends := mailbox.sends + 1
      history := .sent mailbox.sends due :: mailbox.history } := by
  have about : (Event.sent mailbox.sends due).about = some (mailbox.sends, .queued) := rfl
  have unsent := inv.unsent
  have older : ∀ message ∈ mailbox.waiting, message.1 < mailbox.sends := fun message member =>
    inv.numbers _ _ ((inv.waits message.1 message.2).mp member).2
  have member_iff : ∀ message, message ∈ front ++ (mailbox.sends, due) :: back ↔
      message = (mailbox.sends, due) ∨ message ∈ mailbox.waiting := by
    intro message
    rw [split]
    simp only [List.mem_append, List.mem_cons]
    tauto
  have others : ∀ {number : Nat}, mailbox.sends ≠ number →
      standing (.sent mailbox.sends due :: mailbox.history) number =
        standing mailbox.history number := fun apart => standing_cons_of_ne about apart
  constructor
  case legal => exact ⟨⟨unsent, inv.numbers⟩, inv.legal⟩
  case waits =>
    intro number other
    rw [member_iff, List.mem_cons]
    by_cases same : mailbox.sends = number
    · rw [← same, standing_cons_self about]
      constructor
      · intro member
        cases member with
        | inl new =>
            cases new
            exact ⟨rfl, .inl rfl⟩
        | inr old => exact absurd (older _ old) (Nat.lt_irrefl _)
      · intro member
        cases member.2 with
        | inl new =>
            cases new
            exact .inl rfl
        | inr old => exact absurd (inv.numbers _ _ old) (Nat.lt_irrefl _)
    · rw [others same, inv.waits]
      constructor
      · intro member
        cases member with
        | inl new => exact absurd (congrArg Prod.fst new).symm same
        | inr old => exact ⟨old.1, .inr old.2⟩
      · intro member
        cases member.2 with
        | inl new =>
            cases new
            exact absurd rfl same
        | inr old => exact .inr ⟨member.1, old⟩
  case reads =>
    intro number
    by_cases same : mailbox.sends = number
    · rw [← same, standing_cons_self about]
      constructor
      · intro holds
        exact absurd (unsent.symm.trans ((inv.reads _).mp holds)) (Option.some_ne_none _).symm
      · intro dispatching
        cases dispatching
    · rw [others same]
      exact inv.reads number
  case undelivered =>
    intro number dequeued
    have before := inv.undelivered number dequeued
    refine ⟨fun time member => before.1 time (List.mem_of_ne_of_mem (by simp) member),
      fun other member => ?_⟩
    · cases List.mem_cons.mp member with
      | inl new =>
          cases new
          have stood := (inv.reads mailbox.sends).mp (by rw [dequeued]; exact rfl)
          exact absurd (unsent.symm.trans stood) (Option.some_ne_none _).symm
      | inr old => exact before.2 other old
  case delivered =>
    intro number dispatching
    rcases inv.delivered number dispatching with ⟨time, member⟩
    exact ⟨time, List.mem_cons_of_mem _ member⟩
  case numbers =>
    intro number other member
    cases List.mem_cons.mp member with
    | inl new =>
        cases new
        exact Nat.lt_succ_self _
    | inr old => exact Nat.lt_succ_of_lt (inv.numbers _ _ old)
  case ordered =>
    have ordered := inv.ordered
    rw [split, List.pairwise_append] at ordered
    refine List.pairwise_append.mpr ⟨ordered.1, List.pairwise_cons.mpr ⟨?_, ordered.2.1⟩, ?_⟩
    · intro other behind
      by_cases now : due = 0
      · rw [now]
        exact ⟨Nat.zero_le _, fun _ positive => absurd positive (Nat.lt_irrefl 0)⟩
      · have late := dueAfter now other behind
        exact ⟨Nat.le_of_lt late, fun same => absurd same (Nat.ne_of_lt late)⟩
    · intro other inFront behind inBack
      cases List.mem_cons.mp inBack with
      | inl same =>
          rw [same]
          have notNow : due ≠ 0 := by
            intro now
            rw [first now] at inFront
            exact absurd inFront List.not_mem_nil
          exact ⟨dueBefore notNow other inFront, fun _ _ =>
            older other (split ▸ List.mem_append_left _ inFront)⟩
      | inr inBack => exact ordered.2.2 other inFront behind inBack
  case distinct =>
    have absent : mailbox.sends ∉ mailbox.waiting.map Prod.fst := by
      intro member
      rcases List.mem_map.mp member with ⟨message, waits, same⟩
      exact absurd (same ▸ older message waits) (Nat.lt_irrefl _)
    have nodup := List.nodup_cons.mpr ⟨absent, inv.distinct⟩
    rw [split, List.map_append] at nodup
    rw [List.map_append]
    exact List.perm_middle.nodup_iff.mpr nodup
  case quit => exact fun member => inv.quit (List.mem_of_ne_of_mem (by simp) member)
  case drained =>
    intro quitting
    exact absurd (isOpen.symm.trans quitting) Bool.false_ne_true
  case dropped =>
    exact fun number member => inv.dropped number (List.mem_of_ne_of_mem (by simp) member)

theorem Inv.dequeues (inv : mailbox.Inv) {number due : Nat} {rest : List (Nat × Nat)}
    (isOpen : mailbox.quitting = false) (isIdle : mailbox.reader = .idle)
    (split : mailbox.waiting = (number, due) :: rest) (isDue : due ≤ mailbox.time) :
    Inv { mailbox with
      waiting := rest
      reader := .dequeued number
      history := .dequeued number :: mailbox.history } := by
  have about : (Event.dequeued number).about = some (number, .dispatching) := rfl
  have first : (number, due) ∈ mailbox.waiting := by
    rw [split]
    exact List.mem_cons_self
  have queued := inv.queued first
  have sent := ((inv.waits number due).mp first).2
  have distinct := inv.distinct
  rw [split, List.map_cons, List.nodup_cons] at distinct
  have ordered := inv.ordered
  rw [split, List.pairwise_cons] at ordered
  have dueIs : ∀ other, .sent number other ∈ mailbox.history → other = due := fun other member =>
    inv.legal.sent_unique member sent
  have free : ∀ other, standing mailbox.history other ≠ some .dispatching := by
    intro other dispatching
    have holds := (inv.reads other).mpr dispatching
    rw [isIdle] at holds
    exact holds
  constructor
  case legal =>
    refine ⟨⟨queued, fun quit => ?_, fun other otherDue dueAgain before positive noLater => ?_⟩,
      inv.legal⟩
    · exact absurd (isOpen.symm.trans (inv.quit quit)) Bool.false_ne_true
    · have earlier := inv.legal.lt_of_sentBefore before
      rw [dueIs dueAgain before.second_mem] at noLater
      cases stood : standing mailbox.history other with
      | none => exact absurd stood (standing_ne_none_of_mem before.first_mem rfl)
      | some stands =>
          cases stands with
          | finished => exact .inl rfl
          | removed => exact .inr rfl
          | dispatching => exact absurd stood (free other)
          | dropped =>
              have quitting := inv.dropped other (dropped_mem stood)
              exact absurd (isOpen.symm.trans quitting) Bool.false_ne_true
          | queued =>
              have waits := (inv.waits other otherDue).mpr ⟨stood, before.first_mem⟩
              rw [split] at waits
              cases List.mem_cons.mp waits with
              | inl same =>
                  exact absurd (congrArg Prod.fst same) (Nat.ne_of_lt earlier)
              | inr behind =>
                  have ahead := ordered.1 _ behind
                  have same := Nat.le_antisymm ahead.1 noLater
                  exact absurd (ahead.2 same (same ▸ positive)) (Nat.lt_asymm earlier)
  case waits =>
    intro other otherDue
    have kept := inv.waits other otherDue
    rw [split, List.mem_cons] at kept
    by_cases same : number = other
    · rw [← same, standing_cons_self about]
      constructor
      · intro member
        exact absurd (List.mem_map.mpr ⟨_, member, rfl⟩) distinct.1
      · intro queued
        cases queued.1
    · rw [standing_cons_of_ne about same]
      constructor
      · intro member
        have before := kept.mp (.inr member)
        exact ⟨before.1, List.mem_cons_of_mem _ before.2⟩
      · intro member
        cases kept.mpr ⟨member.1, List.mem_of_ne_of_mem (by simp) member.2⟩ with
        | inl equal => exact absurd (congrArg Prod.fst equal).symm same
        | inr member => exact member
  case reads =>
    intro other
    by_cases same : number = other
    · rw [← same, standing_cons_self about]
      exact ⟨fun _ => rfl, fun _ => rfl⟩
    · rw [standing_cons_of_ne about same]
      exact ⟨fun holds => absurd holds same, fun stood => absurd stood (free other)⟩
  case undelivered =>
    intro other dequeued
    cases dequeued
    refine ⟨fun time member => ?_, fun otherDue member => ?_⟩
    · have dispatched := List.mem_of_ne_of_mem (by simp) member
      exact Standing.noConfusion (inv.legal.queued_of_mem queued dispatched rfl)
    · rw [dueIs otherDue (List.mem_of_ne_of_mem (by simp) member)]
      exact isDue
  case delivered =>
    intro other dispatching
    cases dispatching
  case numbers =>
    exact fun other otherDue member =>
      inv.numbers other otherDue (List.mem_of_ne_of_mem (by simp) member)
  case ordered => exact ordered.2
  case distinct => exact distinct.2
  case quit => exact fun member => inv.quit (List.mem_of_ne_of_mem (by simp) member)
  case drained =>
    intro quitting
    exact absurd (isOpen.symm.trans quitting) Bool.false_ne_true
  case dropped =>
    exact fun other member => inv.dropped other (List.mem_of_ne_of_mem (by simp) member)

theorem Inv.dispatches (inv : mailbox.Inv) {number : Nat}
    (dequeued : mailbox.reader = .dequeued number) :
    Inv { mailbox with
      reader := .dispatching number
      history := .dispatched number mailbox.time :: mailbox.history } := by
  have about : (Event.dispatched number mailbox.time).about = some (number, .dispatching) := rfl
  have dispatching := (inv.reads number).mp (by rw [dequeued]; exact rfl)
  have before := inv.undelivered number dequeued
  constructor
  case legal => exact ⟨⟨dispatching, before.1, before.2⟩, inv.legal⟩
  case waits =>
    intro other due
    by_cases same : number = other
    · rw [← same, standing_cons_self about]
      constructor
      · intro member
        have queued := inv.queued member
        exact absurd (dispatching.symm.trans queued) (by simp)
      · intro queued
        cases queued.1
    · rw [standing_cons_of_ne about same, inv.waits]
      exact and_congr_right fun _ =>
        ⟨List.mem_cons_of_mem _, List.mem_of_ne_of_mem (by simp)⟩
  case reads =>
    intro other
    by_cases same : number = other
    · rw [← same, standing_cons_self about]
      exact ⟨fun _ => rfl, fun _ => rfl⟩
    · rw [standing_cons_of_ne about same, ← inv.reads, dequeued]
      exact Iff.rfl
  case undelivered =>
    intro other dequeued
    cases dequeued
  case delivered =>
    intro other dispatching
    cases dispatching
    exact ⟨mailbox.time, List.mem_cons_self⟩
  case numbers =>
    exact fun other due member => inv.numbers other due (List.mem_of_ne_of_mem (by simp) member)
  case ordered => exact inv.ordered
  case distinct => exact inv.distinct
  case quit => exact fun member => inv.quit (List.mem_of_ne_of_mem (by simp) member)
  case drained => exact inv.drained
  case dropped =>
    exact fun other member => inv.dropped other (List.mem_of_ne_of_mem (by simp) member)

theorem Inv.finishes (inv : mailbox.Inv) {number : Nat}
    (dispatching : mailbox.reader = .dispatching number) :
    Inv { mailbox with reader := .idle, history := .finished number :: mailbox.history } := by
  have about : (Event.finished number).about = some (number, .finished) := rfl
  have stood := (inv.reads number).mp (by rw [dispatching]; exact rfl)
  constructor
  case legal => exact ⟨⟨stood, inv.delivered number dispatching⟩, inv.legal⟩
  case waits =>
    intro other due
    by_cases same : number = other
    · rw [← same, standing_cons_self about]
      constructor
      · intro member
        exact absurd (stood.symm.trans (inv.queued member)) (by simp)
      · intro queued
        cases queued.1
    · rw [standing_cons_of_ne about same, inv.waits]
      exact and_congr_right fun _ =>
        ⟨List.mem_cons_of_mem _, List.mem_of_ne_of_mem (by simp)⟩
  case reads =>
    intro other
    refine ⟨fun holds => absurd holds id, fun again => ?_⟩
    by_cases same : number = other
    · rw [← same, standing_cons_self about] at again
      cases again
    · rw [standing_cons_of_ne about same, ← inv.reads, dispatching] at again
      exact same again
  case undelivered =>
    intro other dequeued
    cases dequeued
  case delivered =>
    intro other dispatching
    cases dispatching
  case numbers =>
    exact fun other due member => inv.numbers other due (List.mem_of_ne_of_mem (by simp) member)
  case ordered => exact inv.ordered
  case distinct => exact inv.distinct
  case quit => exact fun member => inv.quit (List.mem_of_ne_of_mem (by simp) member)
  case drained => exact inv.drained
  case dropped =>
    exact fun other member => inv.dropped other (List.mem_of_ne_of_mem (by simp) member)

/-- Waiting messages leave, and the events of all of them have them stand elsewhere. -/
theorem Inv.leaves (inv : mailbox.Inv) {mark : Nat → Event} {stands : Standing}
    (about : ∀ number, (mark number).about = some (number, stands))
    (follows : ∀ earlier number, standing earlier number = some .queued →
      Follows earlier (mark number))
    (ends : stands = .removed ∨ stands = .dropped) {kept gone : List (Nat × Nat)} {quitting : Bool}
    (sublist : kept.Sublist mailbox.waiting) (all : (gone ++ kept).Perm mailbox.waiting)
    (quits : quitting = mailbox.quitting ∨ quitting = true ∧ kept = [])
    (dropped : stands = .dropped → quitting = true) :
    Inv { mailbox with
      waiting := kept
      quitting := quitting
      history := (gone.map Prod.fst).map mark ++ mailbox.history } := by
  have distinct := (all.map Prod.fst).nodup_iff.mpr inv.distinct
  rw [List.map_append, List.nodup_append] at distinct
  have standing_eq : ∀ number,
      standing ((gone.map Prod.fst).map mark ++ mailbox.history) number =
        if number ∈ gone.map Prod.fst then some stands else standing mailbox.history number :=
    standing_map about
  have goneQueued : ∀ number ∈ gone.map Prod.fst,
      standing mailbox.history number = some .queued := by
    intro number member
    rcases List.mem_map.mp member with ⟨message, inGone, same⟩
    rw [← same]
    exact inv.queued (all.subset (List.mem_append_left _ inGone))
  have kind : ∀ {event : Event}, (∀ number, event.about ≠ some (number, stands)) →
      (event ∈ (gone.map Prod.fst).map mark ++ mailbox.history ↔ event ∈ mailbox.history) := by
    intro event apart
    exact mem_map_append_iff fun number same => apart number (same ▸ about number)
  have notSent : ∀ {number due : Nat},
      (.sent number due ∈ (gone.map Prod.fst).map mark ++ mailbox.history ↔
        .sent number due ∈ mailbox.history) := by
    intro number due
    refine kind fun other same => ?_
    cases same
    cases ends with
    | inl same => cases same
    | inr same => cases same
  have notDispatched : ∀ {number time : Nat},
      (.dispatched number time ∈ (gone.map Prod.fst).map mark ++ mailbox.history ↔
        .dispatched number time ∈ mailbox.history) := by
    intro number time
    refine kind fun other same => ?_
    cases same
    cases ends with
    | inl same => cases same
    | inr same => cases same
  have stillQuitting : mailbox.quitting = true → quitting = true := by
    intro before
    cases quits with
    | inl same => exact same.trans before
    | inr now => exact now.1
  constructor
  case legal => exact legal_map about follows inv.legal distinct.1 goneQueued
  case waits =>
    intro number due
    rw [standing_eq, notSent]
    by_cases left : number ∈ gone.map Prod.fst
    · rw [if_pos left]
      constructor
      · intro member
        exact absurd rfl (distinct.2.2 number left number (List.mem_map.mpr ⟨_, member, rfl⟩))
      · intro queued
        cases ends with
        | inl same => exact absurd ((congrArg some same).symm.trans queued.1) (by simp)
        | inr same => exact absurd ((congrArg some same).symm.trans queued.1) (by simp)
    · rw [if_neg left, ← inv.waits, ← all.mem_iff, List.mem_append]
      exact (or_iff_right fun member => left (List.mem_map.mpr ⟨_, member, rfl⟩)).symm
  case reads =>
    intro number
    rw [standing_eq]
    by_cases left : number ∈ gone.map Prod.fst
    · rw [if_pos left]
      constructor
      · intro holds
        exact absurd ((goneQueued number left).symm.trans ((inv.reads number).mp holds)) (by simp)
      · intro dispatching
        cases ends with
        | inl same => exact absurd ((congrArg some same).symm.trans dispatching) (by simp)
        | inr same => exact absurd ((congrArg some same).symm.trans dispatching) (by simp)
    · rw [if_neg left]
      exact inv.reads number
  case undelivered =>
    intro number dequeued
    have before := inv.undelivered number dequeued
    exact ⟨fun time member => before.1 time (notDispatched.mp member),
      fun due member => before.2 due (notSent.mp member)⟩
  case delivered =>
    intro number dispatching
    rcases inv.delivered number dispatching with ⟨time, member⟩
    exact ⟨time, notDispatched.mpr member⟩
  case numbers => exact fun number due member => inv.numbers number due (notSent.mp member)
  case ordered => exact inv.ordered.sublist sublist
  case distinct => exact distinct.2.1
  case quit =>
    intro member
    exact stillQuitting (inv.quit ((kind fun _ same => by cases same).mp member))
  case drained =>
    intro now
    cases quits with
    | inl same =>
        have empty := inv.drained (same.symm.trans now)
        rw [empty] at sublist
        exact List.sublist_nil.mp sublist
    | inr drops => exact drops.2
  case dropped =>
    intro number member
    by_cases same : stands = .dropped
    · exact dropped same
    · refine stillQuitting (inv.dropped number ((kind fun other equal => same ?_).mp member))
      exact (congrArg Prod.snd (Option.some.inj equal)).symm

/-- The end of a call of `quit` on a mailbox in which nothing waits, or which does not quit. -/
theorem Inv.returns (inv : mailbox.Inv) {done : Bool} (quitting : done = true →
    mailbox.quitting = true) : Inv { mailbox with history := .quit done :: mailbox.history } := by
  constructor
  case legal =>
    refine ⟨fun isDone number queued => ?_, inv.legal⟩
    rcases inv.legal.exists_sent queued with ⟨due, sent⟩
    have member := (inv.waits number due).mpr ⟨queued, sent⟩
    rw [inv.drained (quitting isDone)] at member
    exact absurd member List.not_mem_nil
  case waits =>
    intro number due
    rw [standing_cons_quit, inv.waits]
    exact and_congr_right fun _ => ⟨List.mem_cons_of_mem _, List.mem_of_ne_of_mem (by simp)⟩
  case reads => exact inv.reads
  case undelivered =>
    intro number dequeued
    have before := inv.undelivered number dequeued
    exact ⟨fun time member => before.1 time (List.mem_of_ne_of_mem (by simp) member),
      fun due member => before.2 due (List.mem_of_ne_of_mem (by simp) member)⟩
  case delivered =>
    intro number dispatching
    rcases inv.delivered number dispatching with ⟨time, member⟩
    exact ⟨time, List.mem_cons_of_mem _ member⟩
  case numbers =>
    exact fun number due member => inv.numbers number due (List.mem_of_ne_of_mem (by simp) member)
  case ordered => exact inv.ordered
  case distinct => exact inv.distinct
  case quit =>
    intro member
    cases List.mem_cons.mp member with
    | inl new =>
        cases new
        exact quitting rfl
    | inr old => exact inv.quit old
  case drained => exact inv.drained
  case dropped =>
    exact fun number member => inv.dropped number (List.mem_of_ne_of_mem (by simp) member)

theorem Inv.step (inv : mailbox.Inv) (step : Step mailbox mailbox') : mailbox'.Inv := by
  cases step with
  | waits later =>
      exact { inv with
        undelivered := fun number dequeued =>
          ⟨(inv.undelivered number dequeued).1, fun due sent =>
            Nat.le_trans ((inv.undelivered number dequeued).2 due sent) later⟩ }
  | sends isOpen split first dueBefore dueAfter =>
      exact inv.sends isOpen split first dueBefore dueAfter
  | dequeues isOpen isIdle split isDue => exact inv.dequeues isOpen isIdle split isDue
  | dispatches dequeued => exact inv.dispatches dequeued
  | finishes dispatching => exact inv.finishes dispatching
  | removes sublist all =>
      have about : ∀ number, (Event.removed number).about = some (number, .removed) :=
        fun _ => rfl
      have left := inv.leaves about (fun _ _ queued => queued) (.inl rfl) sublist all (.inl rfl)
        (fun same => by cases same)
      rw [List.map_map] at left
      exact left
  | quits =>
      have about : ∀ number, (Event.dropped number).about = some (number, .dropped) :=
        fun _ => rfl
      have left := inv.leaves about (fun _ _ queued => queued) (.inr rfl) (List.nil_sublist _)
        (by rw [List.append_nil]) (.inr ⟨rfl, rfl⟩) (fun _ => rfl)
      rw [List.map_map] at left
      exact left.returns (fun _ => rfl)
  | refusesToQuit => exact inv.returns (fun done => by cases done)

/-- A mailbox to which nothing was sent. -/
theorem new_inv (waiting : mailbox.waiting = []) (reader : mailbox.reader = .idle)
    (history : mailbox.history = []) : mailbox.Inv := by
  have never : ∀ event, event ∉ mailbox.history := by
    intro event
    rw [history]
    exact List.not_mem_nil
  constructor
  case legal =>
    rw [history]
    exact trivial
  case waits =>
    intro number due
    rw [waiting]
    exact ⟨fun member => absurd member List.not_mem_nil, fun sent => absurd sent.2 (never _)⟩
  case reads =>
    intro number
    rw [reader, history]
    exact ⟨fun holds => absurd holds id, fun stood => by cases stood⟩
  case undelivered =>
    intro number dequeued
    exact absurd (reader.symm.trans dequeued) (by simp)
  case delivered =>
    intro number dispatching
    exact absurd (reader.symm.trans dispatching) (by simp)
  case numbers => exact fun _ _ sent => absurd sent (never _)
  case ordered =>
    rw [waiting]
    exact List.Pairwise.nil
  case distinct =>
    rw [waiting]
    exact List.nodup_nil
  case quit => exact fun quit => absurd quit (never _)
  case drained => exact fun _ => waiting
  case dropped => exact fun _ dropped => absurd dropped (never _)

/-- Where a message is. -/
def Stands (mailbox : Mailbox) (number : Nat) : Standing → Prop
  | .queued => ∃ due, (number, due) ∈ mailbox.waiting
  | .dispatching => mailbox.reader.Holds number
  | .finished => .finished number ∈ mailbox.history
  | .removed => .removed number ∈ mailbox.history
  | .dropped => .dropped number ∈ mailbox.history

/-- The history knows where a message is. -/
theorem Inv.stands_iff (inv : mailbox.Inv) {number : Nat} {stands : Standing} :
    mailbox.Stands number stands ↔ standing mailbox.history number = some stands := by
  cases stands with
  | queued =>
      constructor
      · intro waits
        rcases waits with ⟨due, member⟩
        exact inv.queued member
      · intro queued
        rcases inv.legal.exists_sent queued with ⟨due, sent⟩
        exact ⟨due, (inv.waits number due).mpr ⟨queued, sent⟩⟩
  | dispatching => exact inv.reads number
  | finished =>
      refine ⟨fun member => ?_, finished_mem⟩
      exact inv.legal.stays member rfl (by simp) (by simp)
  | removed =>
      refine ⟨fun member => ?_, removed_mem⟩
      exact inv.legal.stays member rfl (by simp) (by simp)
  | dropped =>
      refine ⟨fun member => ?_, dropped_mem⟩
      exact inv.legal.stays member rfl (by simp) (by simp)

/-- A message that was sent is at exactly one place. -/
theorem Inv.stands_once (inv : mailbox.Inv) {number due : Nat}
    (sent : .sent number due ∈ mailbox.history) :
    ∃ stands, mailbox.Stands number stands ∧
      ∀ other, mailbox.Stands number other → other = stands := by
  cases stood : standing mailbox.history number with
  | none => exact absurd stood (standing_ne_none_of_mem sent rfl)
  | some stands =>
      refine ⟨stands, inv.stands_iff.mpr stood, fun other also => ?_⟩
      exact Option.some.inj ((inv.stands_iff.mp also).symm.trans stood)

end Steps

end Mailbox

end Foundation
