import Mindroid.Util.Concurrent.TimeoutSteps

/-!
# The invariant of timeouts

The invariant is stated for the moments between the parts of a method as well: a command may have
lost its clean-up or not have got it yet, and the action of a delayed promise may be the one that
is run.
-/

set_option autoImplicit false

namespace Mindroid

open Foundation

namespace Timeouts

variable {V : Type}

/-- What an action in some list refers to. -/
def Valid (st : Timeouts V) : TimedAction → Prop
  | .biConsumer _ supplier consumer command =>
      (st.command command).consumer = supplier ∧ command < st.commandsMade ∧
        consumer < st.promisesMade ∧ st.delayed consumer = none
  | .delay supplier consumer delay => st.delayed consumer = some (supplier, delay)

/-- The command was posted by a `DelayAction`, for the result of the supplier. -/
def Own (st : Timeouts V) (waiting : List (ObjectId × Nat)) (command : ObjectId) (time : Nat) :
    Prop :=
  ∃ consumer supplier delay,
    st.command command = .completion consumer (st.promise supplier).mResult ∧
    st.delayed consumer = some (supplier, delay) ∧ (st.promise supplier).mIsDone = true ∧
    (st.promise supplier).mException = none ∧
    ∀ due, (command, due) ∈ waiting → time + delay.toNat ≤ due

/-- The delayed promise is done, or something leads to its completion. -/
def Ready (st : Timeouts V) (waiting : List (ObjectId × Nat)) (consumer supplier : Nat)
    (delay : UInt64) : Prop :=
  (st.promise consumer).mIsDone = true ∨
    ((st.promise supplier).mIsDone = false ∧
      .delay supplier consumer delay ∈ (st.promise supplier).mActions) ∨
    .delay supplier consumer delay ∈ st.tried ∨
    ∃ command due, (command, due) ∈ waiting ∧ st.scheduled command ≠ none ∧
      (st.command command).consumer = consumer

/-- The invariant, but for commands without a clean-up and the delayed promises whose action is
not in a list. -/
structure Inv (st : Timeouts V) (waiting : List (ObjectId × Nat)) (loose : ObjectId → Prop)
    (idle : Nat → Prop) : Prop where
  posts : st.loopers.HasPosts sHandler waiting
  known : ∀ command ∈ waiting.map Prod.fst, command < st.commandsMade ∧
    (st.command command).consumer < st.promisesMade
  distinct : (waiting.map Prod.fst).Nodup
  fresh : ∀ promise, (st.promise promise).mIsDone = false →
    (st.promise promise).mException = none
  unmade : ∀ promise, st.promisesMade ≤ promise → (st.promise promise).mIsDone = false ∧
    (st.promise promise).mActions = [] ∧ st.delayed promise = none
  suppliers : ∀ consumer supplier delay, st.delayed consumer = some (supplier, delay) →
    supplier < st.promisesMade
  registered : ∀ promise, ∀ action ∈ (st.promise promise).mActions,
    action.supplier = promise ∧ st.Valid action
  underWay : ∀ action, action ∈ st.tried ∨ action ∈ st.submitted →
    (st.promise action.supplier).mIsDone = true ∧ st.Valid action
  tied : ∀ command ∈ waiting.map Prod.fst, ¬loose command → st.Tied command
  unscheduled : ∀ command, st.commandsMade ≤ command → st.scheduled command = none
  own : ∀ command time, st.scheduled command = some time → st.Own waiting command time
  fired : ∀ promise command, st.completer promise = some (.timeout command) →
    command < st.commandsMade
  ready : ∀ consumer supplier delay, st.delayed consumer = some (supplier, delay) →
    ¬idle consumer → st.Ready waiting consumer supplier delay
  delivers : ∀ consumer supplier delay, st.delayed consumer = some (supplier, delay) →
    st.Delivers consumer supplier delay

/-- Nothing is exempt between two steps. -/
def Never {α : Type} (_ : α) : Prop := False

section Preservation

variable {st : Timeouts V} {waiting : List (ObjectId × Nat)} {loose : ObjectId → Prop}
  {idle : Nat → Prop}

theorem Inv.delayed_made (inv : st.Inv waiting loose idle) {consumer supplier : Nat}
    {delay : UInt64} (isDelayed : st.delayed consumer = some (supplier, delay)) :
    consumer < st.promisesMade := by
  by_contra later
  rw [(inv.unmade consumer (Nat.not_lt.mp later)).2.2] at isDelayed
  cases isDelayed

/-- What the end of a promise has to keep to. -/
def MayFinish (st : Timeouts V) (promise : Nat) (outcome : Outcome V)
    (completer : TimedCompleter) : Prop :=
  (∀ command, completer = .timeout command → command < st.commandsMade) ∧
  ∀ supplier delay, st.delayed promise = some (supplier, delay) →
    (completer = .action → (st.promise supplier).mIsDone = true ∧
      ∃ exception, (st.promise supplier).mException = some exception ∧
        outcome = .error (toCompletionException exception)) ∧
    ∀ command time, completer = .timeout command → st.scheduled command = some time →
      (st.promise supplier).mIsDone = true ∧ (st.promise supplier).mException = none ∧
        outcome = .ok (st.promise supplier).mResult ∧
        time + delay.toNat ≤ st.loopers.uptimeMillis.toNat

theorem Valid.congr {st' : Timeouts V} (promisesMade : st.promisesMade ≤ st'.promisesMade)
    (command : ∀ id, id < st.commandsMade → st'.command id = st.command id)
    (commandsMade : st.commandsMade ≤ st'.commandsMade)
    (delayed : ∀ id, id < st.promisesMade → st'.delayed id = st.delayed id)
    (unmade : ∀ id, st.promisesMade ≤ id → st.delayed id = none)
    {action : TimedAction} (valid : st.Valid action) : st'.Valid action := by
  cases action with
  | biConsumer executor supplier consumer id =>
      rcases valid with ⟨same, known, made, plain⟩
      refine ⟨?_, Nat.lt_of_lt_of_le known commandsMade, Nat.lt_of_lt_of_le made promisesMade, ?_⟩
      · rw [command id known]
        exact same
      · rw [delayed consumer made]
        exact plain
  | delay supplier consumer delay =>
      have isDelayed : st.delayed consumer = some (supplier, delay) := valid
      have made : consumer < st.promisesMade := by
        by_contra later
        rw [unmade consumer (Nat.not_lt.mp later)] at isDelayed
        cases isDelayed
      exact (delayed consumer made).trans isDelayed

theorem Inv.finished (inv : st.Inv waiting loose idle) {promise : Nat}
    (made : promise < st.promisesMade) {outcome : Outcome V} {completer : TimedCompleter}
    (may : (st.promise promise).mIsDone = false → st.MayFinish promise outcome completer) :
    (st.finished promise outcome completer).Inv waiting loose idle := by
  rcases st.finished_rest promise outcome completer with
    ⟨loopers, promisesMade, command, commandsMade, submitted, delayed, scheduled⟩
  rcases st.finished_self promise outcome completer with ⟨done, cleared, tried⟩
  have others : ∀ other, other ≠ promise →
      (st.finished promise outcome completer).promise other = st.promise other :=
    fun other apart => promise_finished_of_ne apart
  have core : ∀ other, (st.promise other).mIsDone = true →
      ((st.finished promise outcome completer).promise other).mIsDone = true ∧
      ((st.finished promise outcome completer).promise other).mResult =
        (st.promise other).mResult ∧
      ((st.finished promise outcome completer).promise other).mException =
        (st.promise other).mException := fun other => finished_core
  have valid : ∀ action, st.Valid action →
      (st.finished promise outcome completer).Valid action := by
    intro action isValid
    cases action with
    | biConsumer executor supplier consumer id =>
        rw [Valid, command, commandsMade, promisesMade, delayed]
        exact isValid
    | delay supplier consumer delay =>
        rw [Valid, delayed]
        exact isValid
  constructor
  case posts => rw [loopers]; exact inv.posts
  case known => rw [commandsMade, command, promisesMade]; exact inv.known
  case distinct => exact inv.distinct
  case fresh =>
    intro other pending
    by_cases same : other = promise
    · rw [same, done] at pending
      cases pending
    · rw [others other same] at pending ⊢
      exact inv.fresh other pending
  case unmade =>
    intro other unmade
    rw [promisesMade] at unmade
    have apart : other ≠ promise := fun same =>
      absurd (Nat.lt_of_lt_of_le made (same ▸ unmade)) (Nat.lt_irrefl _)
    rw [others other apart, delayed]
    exact inv.unmade other unmade
  case suppliers => rw [delayed, promisesMade]; exact inv.suppliers
  case registered =>
    intro other action member
    by_cases same : other = promise
    · rw [same, cleared] at member
      exact absurd member List.not_mem_nil
    · rw [others other same] at member
      rcases inv.registered other action member with ⟨isSupplier, isValid⟩
      exact ⟨isSupplier, valid action isValid⟩
  case underWay =>
    intro action member
    rw [tried, submitted, List.mem_append] at member
    rcases member with (before | moved) | before
    · rcases inv.underWay action (.inl before) with ⟨isDone, isValid⟩
      exact ⟨(core _ isDone).1, valid action isValid⟩
    · rcases inv.registered promise action moved with ⟨isSupplier, isValid⟩
      rw [isSupplier]
      exact ⟨done, valid action isValid⟩
    · rcases inv.underWay action (.inr before) with ⟨isDone, isValid⟩
      exact ⟨(core _ isDone).1, valid action isValid⟩
  case tied =>
    intro id member notLoose
    rcases inv.tied id member notLoose with ⟨executor, consumer, places⟩
    rw [Tied, command, tried, submitted]
    refine ⟨executor, consumer, ?_⟩
    simp only at places ⊢
    rcases places with ⟨pending, inActions⟩ | inTried | inSubmitted
    · by_cases same : (st.command id).consumer = promise
      · rw [same] at inActions ⊢
        exact .inr (.inl (List.mem_append_right _ inActions))
      · rw [others _ same]
        exact .inl ⟨pending, inActions⟩
    · exact .inr (.inl (List.mem_append_left _ inTried))
    · exact .inr (.inr inSubmitted)
  case unscheduled => rw [commandsMade, scheduled]; exact inv.unscheduled
  case own =>
    intro id time isScheduled
    rw [scheduled] at isScheduled
    rcases inv.own id time isScheduled with
      ⟨consumer, supplier, delay, isCommand, isDelayed, isDone, succeeded, due⟩
    rcases core supplier isDone with ⟨isDone', sameResult, sameException⟩
    refine ⟨consumer, supplier, delay, ?_, ?_, isDone', ?_, due⟩
    · rw [command, sameResult]
      exact isCommand
    · rw [delayed]
      exact isDelayed
    · rw [sameException]
      exact succeeded
  case fired =>
    intro other id isTimeout
    rw [commandsMade]
    by_cases same : other = promise
    · cases pending : (st.promise promise).mIsDone with
      | true =>
          rw [finished_done pending] at isTimeout
          exact inv.fired other id isTimeout
      | false =>
          rw [same, (finished_pending pending (inv.fresh promise pending)).2.1] at isTimeout
          exact (may pending).1 id (Option.some.inj isTimeout)
    · rw [(completer_finished_of_ne same).1] at isTimeout
      exact inv.fired other id isTimeout
  case ready =>
    intro consumer supplier delay isDelayed notIdle
    rw [delayed] at isDelayed
    rw [Ready, tried, scheduled, command]
    rcases inv.ready consumer supplier delay isDelayed notIdle with
      isDone | ⟨pending, inActions⟩ | inTried | posted
    · exact .inl (core consumer isDone).1
    · by_cases same : supplier = promise
      · rw [same] at inActions
        exact .inr (.inr (.inl (List.mem_append_right _ (same ▸ inActions))))
      · rw [others supplier same]
        exact .inr (.inl ⟨pending, inActions⟩)
    · exact .inr (.inr (.inl (List.mem_append_left _ inTried)))
    · exact .inr (.inr (.inr posted))
  case delivers =>
    intro consumer supplier delay isDelayed isDone
    rw [delayed] at isDelayed
    cases before : (st.promise consumer).mIsDone with
    | true =>
        rcases inv.delivers consumer supplier delay isDelayed before with ⟨byAction, byTimeout⟩
        rcases core consumer before with ⟨_, sameResult, sameException⟩
        have sameOutcome : ((st.finished promise outcome completer).promise consumer).outcome =
            (st.promise consumer).outcome := by
          rw [Promise.outcome, Promise.outcome, sameResult, sameException]
        rw [(completer_finished_of_done before).1, (completer_finished_of_done before).2, scheduled,
          sameOutcome]
        constructor
        · intro isAction
          rcases byAction isAction with ⟨supplierDone, failed⟩
          rcases core supplier supplierDone with ⟨supplierDone', _, same⟩
          rw [same]
          exact ⟨supplierDone', failed⟩
        · intro id time isTimeout isScheduled
          rcases byTimeout id time isTimeout isScheduled with ⟨supplierDone, succeeded⟩
          rcases core supplier supplierDone with ⟨supplierDone', sameValue, same⟩
          rw [same, sameValue]
          exact ⟨supplierDone', succeeded⟩
    | false =>
        have isPromise : consumer = promise := by
          by_contra apart
          rw [others consumer apart, before] at isDone
          cases isDone
        subst isPromise
        rcases (may before).2 supplier delay isDelayed with ⟨byAction, byTimeout⟩
        rcases finished_pending before (inv.fresh consumer before) with
          ⟨isOutcome, isCompleter, isTime⟩
        rw [isOutcome, isCompleter, isTime, scheduled]
        constructor
        · intro isAction
          rcases byAction (Option.some.inj isAction) with ⟨supplierDone, failed⟩
          rcases core supplier supplierDone with ⟨supplierDone', _, same⟩
          rw [same]
          exact ⟨supplierDone', failed⟩
        · intro id time isTimeout isScheduled
          rcases byTimeout id time (Option.some.inj isTimeout) isScheduled with
            ⟨supplierDone, succeeded⟩
          rcases core supplier supplierDone with ⟨supplierDone', sameValue, same⟩
          rw [same, sameValue]
          exact ⟨supplierDone', succeeded⟩

/-- Actions that are under way go from one list to another, or are being run. -/
theorem Inv.moves (inv : st.Inv waiting loose idle) {tried submitted : List TimedAction}
    {loose' : ObjectId → Prop} {idle' : Nat → Prop}
    (inside : ∀ action, action ∈ tried ∨ action ∈ submitted →
      action ∈ st.tried ∨ action ∈ st.submitted)
    (cleanUps : ∀ executor supplier consumer command,
      .biConsumer executor supplier consumer command ∈ st.tried ∨
          .biConsumer executor supplier consumer command ∈ st.submitted →
        .biConsumer executor supplier consumer command ∈ tried ∨
          .biConsumer executor supplier consumer command ∈ submitted ∨ loose' command)
    (delays : ∀ supplier consumer delay, .delay supplier consumer delay ∈ st.tried →
      .delay supplier consumer delay ∈ tried ∨ idle' consumer)
    (looser : ∀ command, loose command → loose' command)
    (idler : ∀ consumer, idle consumer → idle' consumer) :
    { st with tried, submitted }.Inv waiting loose' idle' := by
  refine { inv with underWay := ?_, tied := ?_, ready := ?_ }
  · exact fun action member => inv.underWay action (inside action member)
  · intro command member notLoose
    rcases inv.tied command member fun is => notLoose (looser command is) with
      ⟨executor, consumer, places⟩
    refine ⟨executor, consumer, ?_⟩
    simp only at places ⊢
    rcases places with registered | underWay
    · exact .inl registered
    · rcases cleanUps _ _ _ _ underWay with isTried | isSubmitted | isLoose
      · exact .inr (.inl isTried)
      · exact .inr (.inr isSubmitted)
      · exact absurd isLoose notLoose
  · intro consumer supplier delay isDelayed notIdle
    rcases inv.ready consumer supplier delay isDelayed fun is => notIdle (idler consumer is) with
      isDone | registered | inTried | posted
    · exact .inl isDone
    · exact .inr (.inl registered)
    · rcases delays supplier consumer delay inTried with isTried | isIdle
      · exact .inr (.inr (.inl isTried))
      · exact absurd isIdle notIdle
    · exact .inr (.inr (.inr posted))

/-- A promise is made; it may be one that `delay` makes. -/
theorem Inv.made [Inhabited V] (inv : st.Inv waiting loose idle) (executor : Option Nat)
    (delayed : Option (Nat × UInt64))
    (supplied : ∀ supplier delay, delayed = some (supplier, delay) →
      supplier < st.promisesMade) :
    { st.withPromise executor with
        delayed := Function.update st.delayed st.promisesMade delayed }.Inv waiting loose
      fun consumer => idle consumer ∨ (consumer = st.promisesMade ∧ delayed ≠ none) := by
  have kept : ∀ other, other ≠ st.promisesMade →
      (st.withPromise executor).promise other = st.promise other :=
    fun other apart => Function.update_of_ne apart _ _
  have keptDelay : ∀ other, other ≠ st.promisesMade →
      Function.update st.delayed st.promisesMade delayed other = st.delayed other :=
    fun other apart => Function.update_of_ne apart _ _
  have new : (st.withPromise executor).promise st.promisesMade =
      { mIsDone := false, mResult := default, mException := none, mActions := [] } :=
    Function.update_self _ _ _
  have doneApart : ∀ other, (st.promise other).mIsDone = true → other ≠ st.promisesMade := by
    intro other done same
    rw [(inv.unmade other (Nat.le_of_eq same.symm)).1] at done
    cases done
  have delayedApart : ∀ other, other ≠ st.promisesMade → ∀ supplier delay,
      st.delayed other = some (supplier, delay) → supplier ≠ st.promisesMade :=
    fun other _ supplier delay isDelayed =>
      Nat.ne_of_lt (inv.suppliers other supplier delay isDelayed)
  have valid : ∀ action, st.Valid action →
      ({ st.withPromise executor with
          delayed := Function.update st.delayed st.promisesMade delayed } :
        Timeouts V).Valid action := by
    intro action isValid
    refine @Valid.congr V st
      { st.withPromise executor with
        delayed := Function.update st.delayed st.promisesMade delayed }
      (Nat.le_succ _) (fun _ _ => rfl) (Nat.le_refl _) (fun id made => ?_)
      (fun id unmade => (inv.unmade id unmade).2.2) action isValid
    exact keptDelay id (Nat.ne_of_lt made)
  constructor
  case posts => exact inv.posts
  case known =>
    intro command member
    exact ⟨(inv.known command member).1, Nat.lt_succ_of_lt (inv.known command member).2⟩
  case distinct => exact inv.distinct
  case fresh =>
    intro other pending
    simp only at pending ⊢
    by_cases same : other = st.promisesMade
    · rw [same, new]
    · rw [kept other same] at pending ⊢
      exact inv.fresh other pending
  case unmade =>
    intro other unmade
    have apart : other ≠ st.promisesMade := (Nat.ne_of_lt unmade).symm
    simp only
    rw [kept other apart, keptDelay other apart]
    exact inv.unmade other (Nat.le_of_succ_le unmade)
  case suppliers =>
    intro consumer supplier delay isDelayed
    simp only at isDelayed
    by_cases same : consumer = st.promisesMade
    · rw [same, Function.update_self] at isDelayed
      exact Nat.lt_succ_of_lt (supplied supplier delay isDelayed)
    · rw [keptDelay consumer same] at isDelayed
      exact Nat.lt_succ_of_lt (inv.suppliers consumer supplier delay isDelayed)
  case registered =>
    intro other action member
    simp only at member
    by_cases same : other = st.promisesMade
    · rw [same, new] at member
      exact absurd member List.not_mem_nil
    · rw [kept other same] at member
      exact ⟨(inv.registered other action member).1,
        valid action (inv.registered other action member).2⟩
  case underWay =>
    intro action member
    rcases inv.underWay action member with ⟨done, isValid⟩
    simp only
    rw [kept _ (doneApart _ done)]
    exact ⟨done, valid action isValid⟩
  case tied =>
    intro command member notLoose
    rcases inv.tied command member notLoose with ⟨owner, consumer, places⟩
    have apart := Nat.ne_of_lt (inv.known command member).2
    refine ⟨owner, consumer, ?_⟩
    simp only at places ⊢
    change ((st.withPromise executor).promise (st.command command).consumer).mIsDone = false ∧
      _ ∈ ((st.withPromise executor).promise (st.command command).consumer).mActions ∨ _
    rw [kept _ apart]
    exact places
  case unscheduled => exact inv.unscheduled
  case own =>
    intro command time isScheduled
    rcases inv.own command time isScheduled with
      ⟨consumer, supplier, delay, isCommand, isDelayed, done, succeeded, due⟩
    have apart : consumer ≠ st.promisesMade := by
      intro same
      rw [(inv.unmade consumer (Nat.le_of_eq same.symm)).2.2] at isDelayed
      cases isDelayed
    refine ⟨consumer, supplier, delay, ?_, (keptDelay consumer apart).trans isDelayed, ?_, ?_, due⟩
    · rw [kept supplier (doneApart supplier done)]
      exact isCommand
    · rw [kept supplier (doneApart supplier done)]
      exact done
    · rw [kept supplier (doneApart supplier done)]
      exact succeeded
  case fired => exact inv.fired
  case ready =>
    intro consumer supplier delay isDelayed notIdle
    simp only at isDelayed
    by_cases same : consumer = st.promisesMade
    · rw [same, Function.update_self] at isDelayed
      refine absurd (Or.inr ⟨same, ?_⟩) notIdle
      rw [isDelayed]
      exact Option.some_ne_none _
    · rw [keptDelay consumer same] at isDelayed
      have ready := inv.ready consumer supplier delay isDelayed fun is => notIdle (.inl is)
      rw [Ready] at ready ⊢
      simp only
      rw [kept consumer same, kept supplier (delayedApart consumer same supplier delay isDelayed)]
      exact ready
  case delivers =>
    intro consumer supplier delay isDelayed
    simp only at isDelayed
    by_cases same : consumer = st.promisesMade
    · intro done
      simp only at done
      rw [same, new] at done
      cases done
    · rw [keptDelay consumer same] at isDelayed
      have delivers := inv.delivers consumer supplier delay isDelayed
      rw [Delivers] at delivers ⊢
      simp only
      rw [kept consumer same, kept supplier (delayedApart consumer same supplier delay isDelayed)]
      exact delivers

/-- The clean-up of a command or the action of a delayed promise is registered. -/
theorem Inv.registers (inv : st.Inv waiting loose idle) {promise : Nat}
    (made : promise < st.promisesMade) (pending : (st.promise promise).mIsDone = false)
    {action : TimedAction} (isSupplier : action.supplier = promise) (valid : st.Valid action)
    {loose' : ObjectId → Prop} {idle' : Nat → Prop}
    (cleanUp : ∀ command, loose command → loose' command ∨
      ∃ executor consumer, action = .biConsumer executor promise consumer command)
    (delays : ∀ consumer, idle consumer → idle' consumer ∨
      ∃ delay, action = .delay promise consumer delay) :
    (st.withAction promise action).Inv waiting loose' idle' := by
  have core := st.withAction_core promise action
  have members := st.mem_withAction_iff promise action
  constructor
  case posts => exact inv.posts
  case known => exact inv.known
  case distinct => exact inv.distinct
  case fresh =>
    intro other
    rw [(core other).1, (core other).2.2]
    exact inv.fresh other
  case unmade =>
    intro other unmade
    have kept : (st.withAction promise action).promise other = st.promise other :=
      Function.update_of_ne (Nat.ne_of_lt (Nat.lt_of_lt_of_le made unmade)).symm _ _
    rw [kept]
    exact inv.unmade other unmade
  case suppliers => exact inv.suppliers
  case registered =>
    intro other member isMember
    rcases (members other member).mp isMember with before | ⟨rfl, rfl⟩
    · exact inv.registered other member before
    · exact ⟨isSupplier, valid⟩
  case underWay =>
    intro member isMember
    rw [(core _).1]
    exact inv.underWay member isMember
  case tied =>
    intro command member notLoose
    by_cases isLoose : loose command
    · rcases cleanUp command isLoose with stillLoose | ⟨executor, consumer, isAction⟩
      · exact absurd stillLoose notLoose
      · have isConsumer : (st.command command).consumer = promise := (isAction ▸ valid).1
        refine ⟨executor, consumer, .inl ⟨?_, ?_⟩⟩
        · rw [(core _).1]
          exact (congrArg (fun id => (st.promise id).mIsDone) isConsumer).trans pending
        · exact (members _ _).mpr (.inr ⟨isConsumer, by rw [isAction, ← isConsumer]; rfl⟩)
    · rcases inv.tied command member isLoose with ⟨executor, consumer, places⟩
      refine ⟨executor, consumer, ?_⟩
      rcases places with ⟨stillPending, inActions⟩ | underWay
      · refine .inl ⟨?_, (members _ _).mpr (.inl inActions)⟩
        rw [(core _).1]
        exact stillPending
      · exact .inr underWay
  case unscheduled => exact inv.unscheduled
  case own =>
    intro command time isScheduled
    rcases inv.own command time isScheduled with
      ⟨consumer, supplier, delay, isCommand, isDelayed, done, succeeded, due⟩
    refine ⟨consumer, supplier, delay, ?_, isDelayed, ?_, ?_, due⟩
    · rw [(core supplier).2.1]
      exact isCommand
    · rw [(core supplier).1]
      exact done
    · rw [(core supplier).2.2]
      exact succeeded
  case fired => exact inv.fired
  case ready =>
    intro consumer supplier delay isDelayed notIdle
    by_cases isIdle : idle consumer
    · rcases delays consumer isIdle with stillIdle | ⟨other, isAction⟩
      · exact absurd stillIdle notIdle
      · rw [isAction] at valid
        have both : some (promise, other) = some (supplier, delay) := valid.symm.trans isDelayed
        cases both
        refine .inr (.inl ⟨?_, (members _ _).mpr (.inr ⟨rfl, isAction.symm⟩)⟩)
        rw [(core _).1]
        exact pending
    · rcases inv.ready consumer supplier delay isDelayed isIdle with
        done | ⟨stillPending, inActions⟩ | later
      · refine .inl ?_
        rw [(core _).1]
        exact done
      · refine .inr (.inl ⟨?_, (members _ _).mpr (.inl inActions)⟩)
        rw [(core _).1]
        exact stillPending
      · exact .inr (.inr later)
  case delivers =>
    intro consumer supplier delay isDelayed
    have delivers := inv.delivers consumer supplier delay isDelayed
    rw [Delivers, Promise.outcome] at delivers ⊢
    rw [(core consumer).1, (core consumer).2.1, (core consumer).2.2, (core supplier).1,
      (core supplier).2.1, (core supplier).2.2]
    exact delivers

/-- More may be exempt, and a delayed promise that is done needs nothing. -/
theorem Inv.mono (inv : st.Inv waiting loose idle) {loose' : ObjectId → Prop} {idle' : Nat → Prop}
    (looser : ∀ command, loose command → loose' command)
    (idler : ∀ consumer, idle consumer →
      idle' consumer ∨ (st.promise consumer).mIsDone = true) :
    st.Inv waiting loose' idle' := by
  refine { inv with tied := ?_, ready := ?_ }
  · exact fun command member notLoose =>
      inv.tied command member fun is => notLoose (looser command is)
  · intro consumer supplier delay isDelayed notIdle
    by_cases isIdle : idle consumer
    · exact .inl ((idler consumer isIdle).resolve_left notIdle)
    · exact inv.ready consumer supplier delay isDelayed isIdle

/-- After a new command has been posted. -/
def posted (st : Timeouts V) (command : Timeout.Command V) (loopers : Loopers)
    (time : Option Nat) : Timeouts V :=
  { st with
    loopers
    sThread := true
    command := Function.update st.command st.commandsMade command
    commandsMade := st.commandsMade + 1
    scheduled := Function.update st.scheduled st.commandsMade time }

theorem command_posted (st : Timeouts V) (command : Timeout.Command V) (loopers : Loopers)
    (time : Option Nat) :
    (st.posted command loopers time).command st.commandsMade = command :=
  Function.update_self _ _ _

theorem scheduled_posted (st : Timeouts V) (command : Timeout.Command V) (loopers : Loopers)
    (time : Option Nat) :
    (st.posted command loopers time).scheduled st.commandsMade = time :=
  Function.update_self _ _ _

/-- What a `DelayAction` posts. -/
def PostsOwn (st : Timeouts V) (command : Timeout.Command V) (time due : Nat) : Prop :=
  ∃ consumer supplier delay,
    command = .completion consumer (st.promise supplier).mResult ∧
    st.delayed consumer = some (supplier, delay) ∧ (st.promise supplier).mIsDone = true ∧
    (st.promise supplier).mException = none ∧ time + delay.toNat ≤ due

/-- A new command waits without a clean-up. -/
theorem Inv.posted (inv : st.Inv waiting loose idle) {command : Timeout.Command V}
    (made : command.consumer < st.promisesMade) {loopers : Loopers}
    {waiting' : List (ObjectId × Nat)} (posts : loopers.HasPosts sHandler waiting') {due : Nat}
    (added : waiting'.Perm ((st.commandsMade, due) :: waiting)) {mark : Option Nat}
    (own : ∀ time, mark = some time → st.PostsOwn command time due)
    {loose' : ObjectId → Prop} {idle' : Nat → Prop}
    (looser : ∀ id, loose id ∨ id = st.commandsMade → loose' id)
    (idler : ∀ consumer, idle consumer →
      idle' consumer ∨ (mark ≠ none ∧ consumer = command.consumer)) :
    (st.posted command loopers mark).Inv waiting' loose' idle' := by
  have kept : ∀ id, id < st.commandsMade →
      (st.posted command loopers mark).command id = st.command id :=
    fun id known => Function.update_of_ne (Nat.ne_of_lt known) _ _
  have new : (st.posted command loopers mark).command st.commandsMade = command :=
    st.command_posted command loopers mark
  have newMark : (st.posted command loopers mark).scheduled st.commandsMade = mark :=
    st.scheduled_posted command loopers mark
  have keptMark : ∀ id, id ≠ st.commandsMade →
      (st.posted command loopers mark).scheduled id = st.scheduled id :=
    fun id apart => Function.update_of_ne apart _ _
  have names : ∀ id, id ∈ waiting'.map Prod.fst →
      id = st.commandsMade ∨ id ∈ waiting.map Prod.fst := fun id member =>
    List.mem_cons.mp ((added.map Prod.fst).mem_iff.mp member)
  have older : ∀ id due', id < st.commandsMade → (id, due') ∈ waiting' → (id, due') ∈ waiting := by
    intro id due' known member
    rcases List.mem_cons.mp (added.mem_iff.mp member) with same | before
    · cases same
      exact absurd known (Nat.lt_irrefl _)
    · exact before
  have valid : ∀ action, st.Valid action → (st.posted command loopers mark).Valid action := by
    intro action isValid
    exact @Valid.congr V st (st.posted command loopers mark) (Nat.le_refl _) kept (Nat.le_succ _)
      (fun _ _ => rfl) (fun id unmade => (inv.unmade id unmade).2.2) action isValid
  constructor
  case posts => exact posts
  case known =>
    intro id member
    rcases names id member with rfl | before
    · rw [new]
      exact ⟨Nat.lt_succ_self _, made⟩
    · rw [kept id (inv.known id before).1]
      exact ⟨Nat.lt_succ_of_lt (inv.known id before).1, (inv.known id before).2⟩
  case distinct =>
    rw [(added.map Prod.fst).nodup_iff]
    refine List.nodup_cons.mpr ⟨fun member => ?_, inv.distinct⟩
    exact absurd (inv.known _ member).1 (Nat.lt_irrefl _)
  case fresh => exact inv.fresh
  case unmade => exact inv.unmade
  case suppliers => exact inv.suppliers
  case registered =>
    intro other action member
    rcases inv.registered other action member with ⟨isSupplier, isValid⟩
    exact ⟨isSupplier, valid action isValid⟩
  case underWay =>
    intro action member
    exact ⟨(inv.underWay action member).1, valid action (inv.underWay action member).2⟩
  case tied =>
    intro id member notLoose
    rcases names id member with same | before
    · exact absurd (looser id (.inr same)) notLoose
    · rcases inv.tied id before fun is => notLoose (looser id (.inl is)) with
        ⟨executor, consumer, places⟩
      refine ⟨executor, consumer, ?_⟩
      rw [kept id (inv.known id before).1]
      exact places
  case unscheduled =>
    intro id later
    rw [keptMark id (Nat.ne_of_lt later).symm]
    exact inv.unscheduled id (Nat.le_of_succ_le later)
  case own =>
    intro id time isScheduled
    by_cases same : id = st.commandsMade
    · subst same
      rw [newMark] at isScheduled
      rcases own time isScheduled with
        ⟨consumer, supplier, delay, isCommand, isDelayed, done, succeeded, inTime⟩
      refine ⟨consumer, supplier, delay, new.trans isCommand, isDelayed, done, succeeded, ?_⟩
      intro due' member
      rcases List.mem_cons.mp (added.mem_iff.mp member) with same | before
      · cases same
        exact inTime
      · exact absurd (inv.known _ (List.mem_map.mpr ⟨_, before, rfl⟩)).1 (Nat.lt_irrefl _)
    · rw [keptMark id same] at isScheduled
      have known : id < st.commandsMade := by
        by_contra later
        rw [inv.unscheduled id (Nat.not_lt.mp later)] at isScheduled
        cases isScheduled
      rcases inv.own id time isScheduled with
        ⟨consumer, supplier, delay, isCommand, isDelayed, done, succeeded, inTime⟩
      exact ⟨consumer, supplier, delay, (kept id known).trans isCommand, isDelayed, done, succeeded,
        fun due' member => inTime due' (older id due' known member)⟩
  case fired => exact fun other id isTimeout => Nat.lt_succ_of_lt (inv.fired other id isTimeout)
  case ready =>
    intro consumer supplier delay isDelayed notIdle
    by_cases isIdle : idle consumer
    · rcases idler consumer isIdle with stillIdle | ⟨isMarked, isConsumer⟩
      · exact absurd stillIdle notIdle
      · refine .inr (.inr (.inr
          ⟨st.commandsMade, due, added.mem_iff.mpr List.mem_cons_self, ?_, ?_⟩))
        · rw [newMark]
          exact isMarked
        · rw [new, isConsumer]
    · rcases inv.ready consumer supplier delay isDelayed isIdle with
        done | inActions | inTried | ⟨id, due', member, isScheduled, isConsumer⟩
      · exact .inl done
      · exact .inr (.inl inActions)
      · exact .inr (.inr (.inl inTried))
      · have known := (inv.known id (List.mem_map.mpr ⟨_, member, rfl⟩)).1
        refine .inr (.inr (.inr ⟨id, due', added.mem_iff.mpr (List.mem_cons_of_mem _ member),
          ?_, (congrArg _ (kept id known)).trans isConsumer⟩))
        rw [keptMark id (Nat.ne_of_lt known)]
        exact isScheduled
  case delivers =>
    intro consumer supplier delay isDelayed done
    rcases inv.delivers consumer supplier delay isDelayed done with ⟨byAction, byTimeout⟩
    refine ⟨byAction, fun id time isTimeout isScheduled => ?_⟩
    rw [keptMark id (Nat.ne_of_lt (inv.fired consumer id isTimeout))] at isScheduled
    exact byTimeout id time isTimeout isScheduled

/-- Commands are taken from the queue only when their promise is done. -/
theorem Inv.drops (inv : st.Inv waiting loose idle) {loopers : Loopers}
    {waiting' : List (ObjectId × Nat)} (posts : loopers.HasPosts sHandler waiting')
    (sublist : waiting'.Sublist waiting) {loose' : ObjectId → Prop}
    (dropped : ∀ post ∈ waiting, post ∉ waiting' →
      (st.promise (st.command post.1).consumer).mIsDone = true)
    (looser : ∀ command ∈ waiting'.map Prod.fst, loose command → loose' command) :
    { st with loopers }.Inv waiting' loose' idle := by
  refine { inv with
    posts := posts
    known := fun command member => inv.known command ((sublist.map _).subset member)
    distinct := inv.distinct.sublist (sublist.map _)
    tied := ?_
    own := ?_
    ready := ?_ }
  · intro command member notLoose
    exact inv.tied command ((sublist.map _).subset member) fun is =>
      notLoose (looser command member is)
  · intro command time isScheduled
    rcases inv.own command time isScheduled with
      ⟨consumer, supplier, delay, isCommand, isDelayed, done, succeeded, inTime⟩
    exact ⟨consumer, supplier, delay, isCommand, isDelayed, done, succeeded,
      fun due member => inTime due (sublist.subset member)⟩
  · intro consumer supplier delay isDelayed notIdle
    rcases inv.ready consumer supplier delay isDelayed notIdle with
      done | inActions | inTried | ⟨id, due, member, isScheduled, isConsumer⟩
    · exact .inl done
    · exact .inr (.inl inActions)
    · exact .inr (.inr (.inl inTried))
    · by_cases stays : (id, due) ∈ waiting'
      · exact .inr (.inr (.inr ⟨id, due, stays, isScheduled, isConsumer⟩))
      · refine .inl ?_
        rw [← isConsumer]
        exact dropped (id, due) member stays

end Preservation

end Timeouts

end Mindroid
