import Mathlib.Data.List.Nodup

/-!
# Histories of mailboxes

Messages are numbered when they are sent to a mailbox, each for a due time.  The history of the
mailbox, with the latest event first, tells what became of every message: whether it was removed,
dropped when the mailbox quit, or dequeued, dispatched and finished.
-/

set_option autoImplicit false

namespace Foundation

namespace Mailbox

/-- What happens to a mailbox or to the message of a number. -/
inductive Event where
  | sent (number due : Nat)
  | dequeued (number : Nat)
  | dispatched (number time : Nat)
  | finished (number : Nat)
  | removed (number : Nat)
  | dropped (number : Nat)
  | quit (done : Bool)
  deriving DecidableEq

/-- Where a message stands. -/
inductive Standing where
  | queued
  | dispatching
  | finished
  | removed
  | dropped
  deriving DecidableEq

/-- Where an event leaves the message it is about. -/
def Event.about : Event → Option (Nat × Standing)
  | .sent number _ => some (number, .queued)
  | .dequeued number => some (number, .dispatching)
  | .dispatched number _ => some (number, .dispatching)
  | .finished number => some (number, .finished)
  | .removed number => some (number, .removed)
  | .dropped number => some (number, .dropped)
  | .quit _ => none

/-- Where an event finds the message it is about. -/
def Event.finds : Event → Option Standing
  | .sent _ _ => none
  | .dequeued _ => some .queued
  | .removed _ => some .queued
  | .dropped _ => some .queued
  | .dispatched _ _ => some .dispatching
  | .finished _ => some .dispatching
  | .quit _ => none

/-- Where the latest event about a message has left it. -/
def standing : List Event → Nat → Option Standing
  | [], _ => none
  | event :: earlier, number =>
      match event.about with
      | none => standing earlier number
      | some (other, stands) =>
          if other = number then some stands else standing earlier number

/-- One message was sent before another one. -/
def SentBefore (history : List Event) (first firstDue second secondDue : Nat) : Prop :=
  ∃ later earlier, history = later ++ .sent second secondDue :: earlier ∧
    .sent first firstDue ∈ earlier

/-- An event that may come next. -/
def Follows (earlier : List Event) : Event → Prop
  | .sent number _ =>
      standing earlier number = none ∧ ∀ other due, .sent other due ∈ earlier → other < number
  | .dequeued number =>
      standing earlier number = some .queued ∧ .quit true ∉ earlier ∧
        ∀ first firstDue due, SentBefore earlier first firstDue number due → 0 < firstDue →
          firstDue ≤ due →
            standing earlier first = some .finished ∨ standing earlier first = some .removed
  | .dispatched number time =>
      standing earlier number = some .dispatching ∧ (∀ time, .dispatched number time ∉ earlier) ∧
        ∀ due, .sent number due ∈ earlier → due ≤ time
  | .finished number =>
      standing earlier number = some .dispatching ∧ ∃ time, .dispatched number time ∈ earlier
  | .removed number => standing earlier number = some .queued
  | .dropped number => standing earlier number = some .queued
  | .quit done => done = true → ∀ number, standing earlier number ≠ some .queued

/-- Every event of the history may follow those before it. -/
def Legal : List Event → Prop
  | [] => True
  | event :: earlier => Follows earlier event ∧ Legal earlier

/-! ## Histories -/

section History

variable {history earlier later : List Event} {event : Event} {number : Nat} {stands : Standing}

theorem standing_cons_self (about : event.about = some (number, stands)) :
    standing (event :: earlier) number = some stands := by
  rw [standing, about]
  exact if_pos rfl

theorem standing_cons_of_ne {other : Nat} (about : event.about = some (other, stands))
    (apart : other ≠ number) : standing (event :: earlier) number = standing earlier number := by
  rw [standing, about]
  exact if_neg apart

theorem standing_cons_quit (done : Bool) :
    standing (.quit done :: earlier) number = standing earlier number := rfl

theorem Legal.split (legal : Legal (later ++ event :: earlier)) :
    Follows earlier event ∧ Legal earlier := by
  induction later with
  | nil => exact legal
  | cons first later ih => exact ih legal.2

/-- Only a message that was not sent yet has no standing. -/
theorem standing_eq_none_iff :
    standing history number = none ↔
      ∀ event ∈ history, ∀ stands, event.about ≠ some (number, stands) := by
  induction history with
  | nil => exact ⟨fun _ _ member => absurd member List.not_mem_nil, fun _ => rfl⟩
  | cons event earlier ih =>
      rw [List.forall_mem_cons, ← ih]
      cases about : event.about with
      | none =>
          rw [standing, about]
          exact ⟨fun none => ⟨fun _ same => (Option.some_ne_none _ same.symm), none⟩, And.right⟩
      | some found =>
          rcases found with ⟨other, stands⟩
          by_cases same : other = number
          · rw [same] at about ⊢
            rw [standing_cons_self about]
            exact ⟨fun none => absurd none (Option.some_ne_none _),
              fun never => absurd rfl (never.1 stands)⟩
          · rw [standing_cons_of_ne about same]
            refine ⟨fun none => ⟨fun stands equal => same ?_, none⟩, And.right⟩
            exact congrArg Prod.fst (Option.some.inj equal)

theorem standing_ne_none_of_mem (member : event ∈ history)
    (about : event.about = some (number, stands)) : standing history number ≠ none :=
  fun none => standing_eq_none_iff.mp none event member stands about

theorem Follows.found (follows : Follows earlier event)
    (about : event.about = some (number, stands)) : standing earlier number = event.finds := by
  cases event with
  | sent other due =>
      cases about
      exact follows.1
  | dequeued other =>
      cases about
      exact follows.1
  | dispatched other time =>
      cases about
      exact follows.1
  | finished other =>
      cases about
      exact follows.1
  | removed other =>
      cases about
      exact follows
  | dropped other =>
      cases about
      exact follows
  | quit done => cases about

/-- A message that was finished, removed or dropped stays so. -/
theorem Legal.stays (legal : Legal history) (member : event ∈ history)
    (about : event.about = some (number, stands)) (notQueued : stands ≠ .queued)
    (notDispatching : stands ≠ .dispatching) : standing history number = some stands := by
  induction history with
  | nil => exact absurd member List.not_mem_nil
  | cons latest earlier ih =>
      cases List.mem_cons.mp member with
      | inl same =>
          rw [← same]
          exact standing_cons_self about
      | inr before =>
          have stood := ih legal.2 before
          cases latestAbout : latest.about with
          | none =>
              rw [standing, latestAbout]
              exact stood
          | some found =>
              rcases found with ⟨other, latestStands⟩
              by_cases same : other = number
              · rw [same] at latestAbout
                have found := legal.1.found latestAbout
                rw [stood] at found
                cases latest with
                | sent => cases found
                | quit => cases found
                | dequeued => exact absurd (Option.some.inj found) notQueued
                | removed => exact absurd (Option.some.inj found) notQueued
                | dropped => exact absurd (Option.some.inj found) notQueued
                | dispatched => exact absurd (Option.some.inj found) notDispatching
                | finished => exact absurd (Option.some.inj found) notDispatching
              · rw [standing_cons_of_ne latestAbout same]
                exact stood

/-- All that is known of a queued message is that it was sent. -/
theorem Legal.queued_of_mem (legal : Legal history)
    (queued : standing history number = some .queued) (member : event ∈ history)
    (about : event.about = some (number, stands)) : stands = .queued := by
  induction history with
  | nil => exact absurd member List.not_mem_nil
  | cons latest earlier ih =>
      cases latestAbout : latest.about with
      | none =>
          rw [standing, latestAbout] at queued
          cases List.mem_cons.mp member with
          | inl same =>
              rw [same, latestAbout] at about
              cases about
          | inr before => exact ih legal.2 queued before
      | some found =>
          rcases found with ⟨other, latestStands⟩
          by_cases same : other = number
          · rw [same] at latestAbout
            have latestQueued := Option.some.inj ((standing_cons_self latestAbout).symm.trans queued)
            have found := legal.1.found latestAbout
            cases List.mem_cons.mp member with
            | inl same =>
                rw [same, latestAbout] at about
                exact (congrArg Prod.snd (Option.some.inj about)).symm.trans latestQueued
            | inr before =>
                have nothing : latest.finds = none := by
                  cases latest with
                  | sent => rfl
                  | quit => rfl
                  | dequeued => cases latestAbout; cases latestQueued
                  | removed => cases latestAbout; cases latestQueued
                  | dropped => cases latestAbout; cases latestQueued
                  | dispatched => cases latestAbout; cases latestQueued
                  | finished => cases latestAbout; cases latestQueued
                exact absurd (found.trans nothing) (standing_ne_none_of_mem before about)
          · rw [standing_cons_of_ne latestAbout same] at queued
            cases List.mem_cons.mp member with
            | inl equal =>
                rw [equal, latestAbout] at about
                exact absurd (congrArg Prod.fst (Option.some.inj about)) same
            | inr before => exact ih legal.2 queued before

/-- A message is sent for one time only. -/
theorem Legal.sent_unique (legal : Legal history) {due due' : Nat}
    (sent : .sent number due ∈ history) (sent' : .sent number due' ∈ history) : due = due' := by
  induction history with
  | nil => exact absurd sent List.not_mem_nil
  | cons latest earlier ih =>
      cases List.mem_cons.mp sent with
      | inl same =>
          cases List.mem_cons.mp sent' with
          | inl same' =>
              have equal := same.trans same'.symm
              cases equal
              rfl
          | inr before =>
              have follows := legal.1
              rw [← same] at follows
              exact absurd follows.1 (standing_ne_none_of_mem before rfl)
      | inr before =>
          cases List.mem_cons.mp sent' with
          | inl same' =>
              have follows := legal.1
              rw [← same'] at follows
              exact absurd follows.1 (standing_ne_none_of_mem before rfl)
          | inr before' => exact ih legal.2 before before'

/-- Messages are numbered in the order in which they are sent. -/
theorem Legal.lt_of_sentBefore (legal : Legal history) {first firstDue second secondDue : Nat}
    (before : SentBefore history first firstDue second secondDue) : first < second := by
  rcases before with ⟨later, earlier, split, member⟩
  rw [split] at legal
  exact legal.split.1.2 first firstDue member

theorem SentBefore.first_mem {first firstDue second secondDue : Nat}
    (before : SentBefore history first firstDue second secondDue) :
    .sent first firstDue ∈ history := by
  rcases before with ⟨later, earlier, split, member⟩
  rw [split]
  exact List.mem_append_right _ (List.mem_cons_of_mem _ member)

theorem SentBefore.second_mem {first firstDue second secondDue : Nat}
    (before : SentBefore history first firstDue second secondDue) :
    .sent second secondDue ∈ history := by
  rcases before with ⟨later, earlier, split, member⟩
  rw [split]
  exact List.mem_append_right _ List.mem_cons_self

end History

/-! ## What the history says -/

section Legal

variable {history earlier later : List Event} {event : Event} {number time : Nat}
  {stands : Standing}

/-- Some event has left a message where it stands. -/
theorem exists_of_standing (stood : standing history number = some stands) :
    ∃ event ∈ history, event.about = some (number, stands) := by
  induction history with
  | nil => cases stood
  | cons latest earlier ih =>
      cases about : latest.about with
      | none =>
          rw [standing, about] at stood
          rcases ih stood with ⟨event, member, left⟩
          exact ⟨event, List.mem_cons_of_mem _ member, left⟩
      | some found =>
          rcases found with ⟨other, latestStands⟩
          by_cases same : other = number
          · rw [same] at about
            have equal := (standing_cons_self about).symm.trans stood
            exact ⟨latest, List.mem_cons_self, about.trans (by rw [Option.some.inj equal])⟩
          · rw [standing_cons_of_ne about same] at stood
            rcases ih stood with ⟨event, member, left⟩
            exact ⟨event, List.mem_cons_of_mem _ member, left⟩

theorem finished_mem (stood : standing history number = some .finished) :
    .finished number ∈ history := by
  rcases exists_of_standing stood with ⟨event, member, about⟩
  cases event with
  | finished other => cases about; exact member
  | _ => cases about

theorem removed_mem (stood : standing history number = some .removed) :
    .removed number ∈ history := by
  rcases exists_of_standing stood with ⟨event, member, about⟩
  cases event with
  | removed other => cases about; exact member
  | _ => cases about

theorem dropped_mem (stood : standing history number = some .dropped) :
    .dropped number ∈ history := by
  rcases exists_of_standing stood with ⟨event, member, about⟩
  cases event with
  | dropped other => cases about; exact member
  | _ => cases about

/-- What has a standing was sent. -/
theorem Legal.exists_sent (legal : Legal history) (stood : standing history number = some stands) :
    ∃ due, .sent number due ∈ history := by
  induction history generalizing stands with
  | nil => cases stood
  | cons latest earlier ih =>
      have older : ∀ {stands : Standing}, standing earlier number = some stands →
          ∃ due, .sent number due ∈ latest :: earlier := by
        intro stands before
        rcases ih legal.2 before with ⟨due, member⟩
        exact ⟨due, List.mem_cons_of_mem _ member⟩
      cases about : latest.about with
      | none =>
          rw [standing, about] at stood
          exact older stood
      | some found =>
          rcases found with ⟨other, latestStands⟩
          by_cases same : other = number
          · rw [same] at about
            have found := legal.1.found about
            cases latest with
            | sent other due =>
                cases about
                exact ⟨due, List.mem_cons_self⟩
            | quit => cases about
            | dequeued => exact older found
            | dispatched => exact older found
            | finished => exact older found
            | removed => exact older found
            | dropped => exact older found
          · rw [standing_cons_of_ne about same] at stood
            exact older stood

/-- A message that is dispatched was dequeued. -/
theorem Legal.dequeued_mem (legal : Legal history)
    (dispatching : standing history number = some .dispatching) :
    .dequeued number ∈ history := by
  induction history with
  | nil => cases dispatching
  | cons latest earlier ih =>
      cases about : latest.about with
      | none =>
          rw [standing, about] at dispatching
          exact List.mem_cons_of_mem _ (ih legal.2 dispatching)
      | some found =>
          rcases found with ⟨other, latestStands⟩
          by_cases same : other = number
          · rw [same] at about
            have equal := Option.some.inj ((standing_cons_self about).symm.trans dispatching)
            rw [equal] at about
            cases latest with
            | dequeued => cases about; exact List.mem_cons_self
            | dispatched =>
                cases about
                exact List.mem_cons_of_mem _ (ih legal.2 legal.1.1)
            | _ => cases about
          · rw [standing_cons_of_ne about same] at dispatching
            exact List.mem_cons_of_mem _ (ih legal.2 dispatching)

/-- A message is sent before anything else happens to it. -/
theorem Legal.sent_mem (legal : Legal (later ++ event :: earlier)) {due : Nat}
    (about : event.about = some (number, stands))
    (sent : .sent number due ∈ later ++ event :: earlier) :
    .sent number due ∈ event :: earlier := by
  cases List.mem_append.mp sent with
  | inr before => exact before
  | inl after =>
      rcases List.append_of_mem after with ⟨front, back, split⟩
      rw [split, List.append_assoc] at legal
      have follows := legal.split.1
      have member : event ∈ back ++ event :: earlier :=
        List.mem_append_right _ List.mem_cons_self
      exact absurd follows.1 (standing_ne_none_of_mem member about)

/-- The history before the sending of a message is determined. -/
theorem Legal.sent_split_unique {due due' : Nat} {later' earlier' : List Event}
    (legal : Legal (later ++ .sent number due :: earlier))
    (same : later ++ .sent number due :: earlier = later' ++ .sent number due' :: earlier') :
    earlier = earlier' := by
  have never : ∀ due, .sent number due ∉ earlier := fun due member =>
    standing_ne_none_of_mem member rfl legal.split.1.1
  have legal' : Legal (later' ++ .sent number due' :: earlier') := same ▸ legal
  have never' : ∀ due, .sent number due ∉ earlier' := fun due member =>
    standing_ne_none_of_mem member rfl legal'.split.1.1
  cases List.append_eq_append_iff.mp same with
  | inl longer =>
      rcases longer with ⟨between, _, rest⟩
      cases between with
      | nil => exact (List.cons.inj rest).2
      | cons first between =>
          have equal := (List.cons.inj rest).2
          exact absurd (equal ▸ List.mem_append_right _ List.mem_cons_self) (never due')
  | inr shorter =>
      rcases shorter with ⟨between, _, rest⟩
      cases between with
      | nil => exact (List.cons.inj rest).2.symm
      | cons first between =>
          have equal := (List.cons.inj rest).2
          exact absurd (equal ▸ List.mem_append_right _ List.mem_cons_self) (never' due)

/-- A message is dispatched once. -/
theorem Legal.dispatched_once (legal : Legal (later ++ .dispatched number time :: earlier))
    (other : Nat) : .dispatched number other ∉ earlier :=
  legal.split.1.2.1 other

/-- No message is dispatched before its time. -/
theorem Legal.due_le (legal : Legal history) {due : Nat}
    (dispatched : .dispatched number time ∈ history) (sent : .sent number due ∈ history) :
    due ≤ time := by
  rcases List.append_of_mem dispatched with ⟨later, earlier, split⟩
  rw [split] at legal sent
  cases List.mem_cons.mp (legal.sent_mem rfl sent) with
  | inl same => cases same
  | inr before => exact legal.split.1.2.2 due before

/-- What was removed is not dispatched afterwards. -/
theorem Legal.not_dispatched_of_removed (legal : Legal (later ++ .removed number :: earlier))
    (time : Nat) : .dispatched number time ∉ later := by
  intro dispatched
  rcases List.append_of_mem dispatched with ⟨front, back, split⟩
  rw [split, List.append_assoc] at legal
  have follows := legal.split
  have removed := follows.2.stays (List.mem_append_right _ List.mem_cons_self)
    (rfl : (Event.removed number).about = some (number, .removed))
    (fun same => Standing.noConfusion same) (fun same => Standing.noConfusion same)
  exact absurd (follows.1.1.symm.trans removed) (fun same => by cases same)

/-- After the mailbox has quit, what was dequeued before is dispatched only. -/
theorem Legal.dequeued_of_quit (legal : Legal (later ++ .quit true :: earlier))
    (dispatched : .dispatched number time ∈ later) : .dequeued number ∈ earlier := by
  rcases List.append_of_mem dispatched with ⟨front, back, split⟩
  rw [split, List.append_assoc] at legal
  have follows := legal.split
  cases List.mem_append.mp (follows.2.dequeued_mem follows.1.1) with
  | inl after =>
      rcases List.append_of_mem after with ⟨front', back', split'⟩
      have legal' : Legal (back ++ .quit true :: earlier) := follows.2
      rw [split', List.append_assoc] at legal'
      exact absurd (List.mem_append_right _ List.mem_cons_self) legal'.split.1.2.1
  | inr before =>
      cases List.mem_cons.mp before with
      | inl same => cases same
      | inr inEarlier => exact inEarlier

/-- A message that is sent before another one and due no later is dispatched before it unless it
was removed. -/
theorem Legal.dispatched_before (legal : Legal (later ++ .dispatched number time :: earlier))
    {first firstDue due : Nat}
    (before : SentBefore (later ++ .dispatched number time :: earlier) first firstDue number due)
    (positive : 0 < firstDue) (noLater : firstDue ≤ due) :
    (∃ time, .dispatched first time ∈ earlier) ∨ .removed first ∈ earlier := by
  have follows := legal.split
  rcases List.append_of_mem (follows.2.dequeued_mem follows.1.1) with ⟨front, back, split⟩
  have dequeued := follows.2
  rw [split] at dequeued
  have moved : SentBefore back first firstDue number due := by
    rcases before with ⟨front', back', split', member⟩
    have sent : .sent number due ∈ later ++ .dispatched number time :: earlier := by
      rw [split']
      exact List.mem_append_right _ List.mem_cons_self
    have inEarlier : .sent number due ∈ earlier := by
      cases List.mem_cons.mp (legal.sent_mem rfl sent) with
      | inl same => cases same
      | inr inEarlier => exact inEarlier
    have inBack : .sent number due ∈ back := by
      rw [split] at inEarlier
      cases List.mem_cons.mp (dequeued.sent_mem rfl inEarlier) with
      | inl same => cases same
      | inr inBack => exact inBack
    rcases List.append_of_mem inBack with ⟨left, right, inside⟩
    have whole : later ++ .dispatched number time :: earlier =
        (later ++ .dispatched number time :: (front ++ .dequeued number :: left)) ++
          .sent number due :: right := by
      rw [split, inside]
      simp only [List.append_assoc, List.cons_append]
    rw [whole] at legal
    rw [legal.sent_split_unique (whole.symm.trans split')] at inside
    exact ⟨left, back', inside, member⟩
  rw [split]
  cases dequeued.split.1.2.2 first firstDue due moved positive noLater with
  | inl finished =>
      left
      have ended := finished_mem finished
      rcases List.append_of_mem ended with ⟨left, right, inside⟩
      have legalBack := dequeued.split.2
      rw [inside] at legalBack
      rcases legalBack.split.1.2 with ⟨dispatchTime, member⟩
      refine ⟨dispatchTime, List.mem_append_right _ (List.mem_cons_of_mem _ ?_)⟩
      rw [inside]
      exact List.mem_append_right _ (List.mem_cons_of_mem _ member)
  | inr removed =>
      right
      exact List.mem_append_right _ (List.mem_cons_of_mem _ (removed_mem removed))

end Legal

/-! ## The events of several messages -/

section Several

variable {mark : Nat → Event} {stands : Standing} {numbers : List Nat} {history : List Event}

theorem standing_map (about : ∀ number, (mark number).about = some (number, stands))
    (number : Nat) :
    standing (numbers.map mark ++ history) number =
      if number ∈ numbers then some stands else standing history number := by
  induction numbers with
  | nil => exact (if_neg List.not_mem_nil).symm
  | cons first numbers ih =>
      rw [List.map_cons, List.cons_append]
      by_cases same : first = number
      · rw [← same, standing_cons_self (about first), if_pos List.mem_cons_self]
      · rw [standing_cons_of_ne (about first) same, ih]
        exact if_congr (List.mem_cons.trans (or_iff_right (Ne.symm same))).symm rfl rfl

/-- Queued messages can leave one after the other. -/
theorem legal_map (about : ∀ number, (mark number).about = some (number, stands))
    (follows : ∀ earlier number, standing earlier number = some .queued →
      Follows earlier (mark number))
    (legal : Legal history) (nodup : numbers.Nodup)
    (queued : ∀ number ∈ numbers, standing history number = some .queued) :
    Legal (numbers.map mark ++ history) := by
  induction numbers with
  | nil => exact legal
  | cons first numbers ih =>
      have apart := List.nodup_cons.mp nodup
      refine ⟨follows _ first ?_, ih apart.2 fun number member =>
        queued number (List.mem_cons_of_mem _ member)⟩
      exact (standing_map about first).trans
        ((if_neg apart.1).trans (queued first List.mem_cons_self))

theorem mem_map_append_iff {event : Event} (other : ∀ number, mark number ≠ event) :
    event ∈ numbers.map mark ++ history ↔ event ∈ history := by
  rw [List.mem_append]
  refine or_iff_right fun member => ?_
  rcases List.mem_map.mp member with ⟨number, _, same⟩
  exact other number same

end Several

end Mailbox

end Foundation
