import Mindroid.Runtime.System.TransactionTable

/-!
# Answers and entries of transactions

A message answers the transaction whose id it carries, if it is the first one to do so.  A
timeout that is faster than the call that sets it leaves the entry of its transaction in the
table.
-/

set_option autoImplicit false

namespace Mindroid

open Foundation

namespace Plugin

namespace Transactions

/-! ## What a step changes -/

/-- The promise that an action completes. -/
def completes (state : Transactions) : TransactionAction → Option (Nat × Completion)
  | .complete =>
      match state.reader with
      | .completes index message => some (index, .message message)
      | _ => none
  | .expire =>
      match state.timer with
      | .completes index => some (index, .timeout)
      | _ => none
  | _ => none

theorem update_field {β : Type} (field : Transaction → β) {transactions : Nat → Transaction}
    {index : Nat} {transaction : Transaction} (other : Nat)
    (same : field transaction = field (transactions index)) :
    field (Function.update transactions index transaction other) = field (transactions other) := by
  by_cases equal : other = index
  · rw [equal, Function.update_self]
    exact same
  · rw [Function.update_of_ne equal]

theorem continuation_result (state : Transactions) (index other : Nat) :
    ((state.continuation index).transactions other).result =
      (state.transactions other).result := by
  apply update_field Transaction.result
  rfl

theorem transact_result {state state' : Transactions} (index : Nat) (action : TransactionAction)
    (taken : state.transact index action = some state') (other : Nat) :
    (state'.transactions other).result = (state.transactions other).result := by
  cases action with
  | orTimeout _ | put _ | write _ _ | withdraw _ =>
      simp only [transact] at taken
      split at taken
      · cases taken
        apply update_field Transaction.result
        rfl
      · cases taken
  | addContinuation _ =>
      simp only [transact] at taken
      split at taken
      · cases taken
        apply update_field Transaction.result
        split <;> rfl
      · cases taken
  | runContinuation _ =>
      simp only [transact] at taken
      split at taken
      · cases taken
        rw [continuation_result]
        apply update_field Transaction.result
        rfl
      · cases taken
  | getAndIncrement | receive | get | remove | complete | runReadersContinuation | fire | expire
  | runTimersContinuation => cases taken

/-- A result changes only when its promise is completed, and only once. -/
theorem step_result {state state' : Transactions} {action : TransactionAction}
    (consistent : state.Consistent) (taken : state.step action = some state') (index : Nat) :
    (state'.transactions index).result = (state.transactions index).result ∨
      ∃ completion, state.completes action = some (index, completion) ∧
        (state.transactions index).result = none ∧
        (state'.transactions index).result = some completion.result := by
  have completion : ∀ found completion,
      (Function.update state.transactions found
        ((state.transactions found).complete completion) index).result =
          (state.transactions index).result ∨
        (found = index ∧ (state.transactions index).result = none ∧
          (Function.update state.transactions found
            ((state.transactions found).complete completion) index).result =
              some completion.result) := by
    intro found completion
    by_cases done : (state.transactions found).result.isSome = true
    · apply Or.inl
      apply update_field Transaction.result
      rw [Transaction.complete_of_done done]
    · by_cases same : index = found
      · rw [same, Function.update_self, Transaction.complete_of_not_done done]
        exact .inr ⟨rfl, Option.not_isSome_iff_eq_none.mp done, rfl⟩
      · rw [Function.update_of_ne same]
        exact .inl rfl
  cases action with
  | getAndIncrement oneway =>
      simp only [step] at taken
      split at taken
      · cases taken
        apply Or.inl
        apply update_field Transaction.result
        rw [consistent.blank (Nat.le_refl _)]
      · cases taken
  | orTimeout found => exact .inl (transact_result found (.orTimeout found) taken index)
  | addContinuation found =>
      exact .inl (transact_result found (.addContinuation found) taken index)
  | runContinuation found =>
      exact .inl (transact_result found (.runContinuation found) taken index)
  | put found => exact .inl (transact_result found (.put found) taken index)
  | write found written =>
      exact .inl (transact_result found (.write found written) taken index)
  | withdraw found => exact .inl (transact_result found (.withdraw found) taken index)
  | receive message =>
      simp only [step] at taken
      split at taken
      · cases taken
        exact .inl rfl
      · cases taken
  | get =>
      cases reading : state.reader <;> simp only [step, reading] at taken <;> cases taken
      rename_i message
      apply Or.inl
      change ((state.transactions index).look message).result = _
      rcases Transaction.look_cases (state.transactions index) message with
        same | ⟨_, _, _, looked⟩
      · rw [same]
      · rw [looked]
  | remove =>
      cases reading : state.reader <;> simp only [step, reading] at taken <;> cases taken
      exact .inl rfl
  | complete =>
      cases reading : state.reader <;> simp only [step, reading] at taken <;> cases taken
      rename_i found message
      rcases completion found (.message message) with
        same | ⟨rfl, waits, done⟩
      · exact .inl same
      · exact .inr ⟨.message message, by rw [completes, reading], waits, done⟩
  | runReadersContinuation =>
      cases reading : state.reader <;> simp only [step, reading] at taken <;> cases taken
      exact .inl (continuation_result state _ index)
  | fire found =>
      simp only [step] at taken
      split at taken
      · cases taken
        apply Or.inl
        apply update_field Transaction.result
        rfl
      · cases taken
  | expire =>
      cases timing : state.timer <;> simp only [step, timing] at taken <;> cases taken
      rename_i found
      rcases completion found .timeout with same | ⟨rfl, waits, done⟩
      · exact .inl same
      · exact .inr ⟨.timeout, by rw [completes, timing], waits, done⟩
  | runTimersContinuation =>
      cases timing : state.timer <;> simp only [step, timing] at taken <;> cases taken
      exact .inl (continuation_result state _ index)

theorem erase_entry {table : Int32 → Option Nat} {transactionId other : Int32} {index : Nat}
    (held : Function.update table transactionId none other = some index) :
    table other = some index := by
  by_cases same : other = transactionId
  · rw [same, Function.update_self] at held
    cases held
  · rw [Function.update_of_ne same] at held
    exact held

/-- Only a call that puts its entry adds one. -/
theorem step_entry {state state' : Transactions} {action : TransactionAction}
    (taken : state.step action = some state') {transactionId : Int32} {index : Nat}
    (held : state'.mTransactions transactionId = some index) :
    state.mTransactions transactionId = some index ∨ action = .put index := by
  cases action with
  | getAndIncrement _ | receive _ | fire _ | orTimeout _ | addContinuation _ | write _ _ =>
      simp only [step, transact] at taken
      split at taken
      · cases taken
        exact .inl held
      · cases taken
  | runContinuation _ | withdraw _ =>
      simp only [step, transact] at taken
      split at taken
      · cases taken
        exact .inl (erase_entry held)
      · cases taken
  | put found =>
      simp only [step, transact] at taken
      split at taken
      · cases taken
        by_cases same : transactionId = (state.transactions found).transactionId
        · change Function.update state.mTransactions _ (some found) transactionId = some index
            at held
          rw [same, Function.update_self, Option.some.injEq] at held
          rw [held]
          exact .inr rfl
        · change Function.update state.mTransactions _ (some found) transactionId = some index
            at held
          rw [Function.update_of_ne same] at held
          exact .inl held
      · cases taken
  | get | complete =>
      cases reading : state.reader <;> simp only [step, reading] at taken <;> cases taken
      exact .inl held
  | remove | runReadersContinuation =>
      cases reading : state.reader <;> simp only [step, reading] at taken <;> cases taken
      exact .inl (erase_entry held)
  | expire =>
      cases timing : state.timer <;> simp only [step, timing] at taken <;> cases taken
      exact .inl held
  | runTimersContinuation =>
      cases timing : state.timer <;> simp only [step, timing] at taken <;> cases taken
      exact .inl (erase_entry held)

/-! ## Runs -/

/-- Steps of any kind. -/
def Steps (state state' : Transactions) : Prop :=
  ∃ action, state.step action = some state'

/-- The results and their history. -/
structure Answers (state : Transactions) : Prop where
  result_eq : ∀ index, (state.transactions index).result =
    (state.transactions index).completedBy.map Completion.result
  /-- A message that completes a promise is the first one with the transaction's id. -/
  only_first : ∀ {index message},
    (state.transactions index).completedBy = some (.message message) →
      message.transactionId = (state.transactions index).transactionId ∧
        (state.transactions index).first = some message
  /-- The first message completes the promise, unless the timeout or a failed write was
  earlier. -/
  first_completes : ∀ {index message}, (state.transactions index).first = some message →
    (state.transactions index).completedBy = some (.message message) ∨
      (state.transactions index).completedBy = some .timeout ∨
      (state.transactions index).withdrawn = true ∨
      state.reader = .removes index message ∨ state.reader = .completes index message

/-- What a step may do to the table and to the results. -/
structure StepAnswers (state : Transactions) (action : TransactionAction)
    (state' : Transactions) : Prop where
  adds : ∀ {transactionId index}, state'.mTransactions transactionId = some index →
    state.mTransactions transactionId = some index ∨ action = .put index
  completes : ∀ index, (state'.transactions index).result ≠ (state.transactions index).result →
    (state.transactions index).result = none ∧
      ((action = .expire ∧
          (state'.transactions index).result = some (.error .timeoutException)) ∨
        ∃ message, action = .complete ∧
          message.transactionId = (state.transactions index).transactionId ∧
          (state.transactions index).first = some message ∧
          (state'.transactions index).result = some (Completion.message message).result)
  unknown : ∀ {message}, action = .get → state.reader = .gets message →
    state.mTransactions message.transactionId = none →
      state'.reader = .idle ∧ state'.mTransactions = state.mTransactions ∧
        ∀ index, (state'.transactions index).result = (state.transactions index).result

theorem Consistent.answers {state : Transactions} (consistent : state.Consistent) :
    state.Answers where
  result_eq index := (consistent.records index).result_eq
  only_first := by
    intro index message completed
    have first := (consistent.records index).answered completed
    exact ⟨((consistent.records index).first_stored first).2, first⟩
  first_completes := by
    intro index message first
    have record := consistent.records index
    have fits := consistent.reader_fits
    rcases consistent.fate (record.first_stored first).1 with
      held | done | withdrawn | ⟨other, completes⟩
    · rcases consistent.looked first with gone | removes
      · rw [held] at gone
        cases gone
      · exact .inr (.inr (.inr (.inl removes)))
    · rcases Option.isSome_iff_exists.mp done with ⟨completion, completed⟩
      cases completion with
      | message other =>
          have same := record.answered completed
          rw [first, Option.some.injEq] at same
          rw [same]
          exact .inl completed
      | timeout => exact .inr (.inl completed)
    · exact .inr (.inr (.inl withdrawn))
    · rw [completes] at fits
      have same := fits.2
      rw [first, Option.some.injEq] at same
      rw [same]
      exact .inr (.inr (.inr (.inr completes)))

theorem Consistent.stepAnswers {state state' : Transactions} {action : TransactionAction}
    (consistent : state.Consistent) (taken : state.step action = some state') :
    state.StepAnswers action state' where
  adds := step_entry taken
  completes := by
    intro index changed
    rcases step_result consistent taken index with same | ⟨completion, completed, waits, done⟩
    · exact absurd same changed
    · refine ⟨waits, ?_⟩
      have fits := consistent.reader_fits
      cases action with
      | complete =>
          cases reading : state.reader <;> simp only [Transactions.completes, reading] at completed <;>
            cases completed
          rename_i message
          rw [reading] at fits
          exact .inr ⟨message, rfl, ((consistent.records index).first_stored fits.2).2, fits.2, done⟩
      | expire =>
          cases timing : state.timer <;> simp only [Transactions.completes, timing] at completed <;>
            cases completed
          exact .inl ⟨rfl, done⟩
      | getAndIncrement | orTimeout | addContinuation | runContinuation | put | write | withdraw
      | receive | get | remove | runReadersContinuation | fire | runTimersContinuation =>
          cases completed
  unknown := by
    intro message gets reading absent
    cases gets
    simp only [Transactions.step, reading, Option.some.injEq] at taken
    have idle : (state.look message).reader = .idle := by
      rw [Transactions.look, absent]
    refine ⟨?_, ?_, ?_⟩
    · rw [← taken]
      exact idle
    · rw [← taken]
      rfl
    · intro index
      rw [← taken]
      change ((state.transactions index).look message).result = _
      rcases Transaction.look_cases (state.transactions index) message with
        same | ⟨_, _, _, looked⟩
      · rw [same]
      · rw [looked]

theorem reachable_consistent {state : Transactions}
    (reachable : Reachable (· = initial) Steps state) : state.Consistent := by
  apply reachable.invariant
  · intro start starts
    rw [starts]
    exact consistent_initial
  · intro before after _ held taken
    rcases taken with ⟨action, steps⟩
    exact held.step steps

/-- A promise is completed only by the first message with its id or by its timeout; other
messages change no result and add no entry. -/
theorem reachable_answers {state : Transactions}
    (reachable : Reachable (· = initial) Steps state) :
    state.Answers ∧ ∀ action state', state.step action = some state' →
      state.StepAnswers action state' :=
  ⟨(reachable_consistent reachable).answers,
    fun _ _ taken => (reachable_consistent reachable).stepAnswers taken⟩

/-! ## Entries of finished transactions -/

/-- A transaction whose continuation has run has no entry. -/
def Clean (state : Transactions) : Prop :=
  ∀ index, (state.transactions index).continued = true →
    state.mTransactions (state.transactions index).transactionId = none

/-- A call puts its entry before the continuation has run. -/
def Timely (state : Transactions) : TransactionAction → Prop
  | .put index => (state.transactions index).continued = false
  | _ => True

/-- Steps in which no timeout is faster than the call. -/
def TimelySteps (state state' : Transactions) : Prop :=
  ∃ action, state.step action = some state' ∧ state.Timely action

theorem continuation_continued {state : Transactions} {found index : Nat}
    (continued : ((state.continuation found).transactions index).continued = true) :
    (state.transactions index).continued = true ∨
      (state.continuation found).mTransactions
        ((state.continuation found).transactions index).transactionId = none := by
  by_cases same : index = found
  · have itself : ((state.continuation found).transactions found).transactionId =
        (state.transactions found).transactionId := by
      apply update_field Transaction.transactionId
      rfl
    rw [same, itself]
    exact .inr (Function.update_self _ _ _)
  · have other : (state.continuation found).transactions index = state.transactions index :=
      Function.update_of_ne same _ _
    rw [other] at continued
    exact .inl continued

/-- A continuation that has just run has removed the entry. -/
theorem step_continued {state state' : Transactions} {action : TransactionAction}
    (consistent : state.Consistent) (taken : state.step action = some state') {index : Nat}
    (continued : (state'.transactions index).continued = true) :
    (state.transactions index).continued = true ∨
      state'.mTransactions (state'.transactions index).transactionId = none := by
  have kept : ∀ found transaction,
      transaction.continued = (state.transactions found).continued →
        (Function.update state.transactions found transaction index).continued = true →
          (state.transactions index).continued = true := by
    intro found transaction same still
    rw [update_field Transaction.continued index same] at still
    exact still
  have completed : ∀ found completion,
      ((state.transactions found).complete completion).continued =
        (state.transactions found).continued := by
    intro found completion
    rw [Transaction.complete]
    split <;> rfl
  cases action with
  | getAndIncrement _ =>
      simp only [step] at taken
      split at taken
      · cases taken
        apply Or.inl
        apply kept _ _ _ continued
        rw [consistent.blank (Nat.le_refl _)]
      · cases taken
  | orTimeout _ | put _ | write _ _ | withdraw _ | fire _ =>
      simp only [step, transact] at taken
      split at taken
      · cases taken
        exact .inl (kept _ _ (by rfl) continued)
      · cases taken
  | addContinuation _ =>
      simp only [step, transact] at taken
      split at taken
      · cases taken
        apply Or.inl
        apply kept _ _ _ continued
        split <;> rfl
      · cases taken
  | runContinuation _ =>
      simp only [step, transact] at taken
      split at taken
      · cases taken
        rcases continuation_continued continued with before | gone
        · exact .inl (kept _ _ (by rfl) before)
        · exact .inr gone
      · cases taken
  | receive _ =>
      simp only [step] at taken
      split at taken
      · cases taken
        exact .inl continued
      · cases taken
  | get =>
      cases reading : state.reader <;> simp only [step, reading] at taken <;> cases taken
      rename_i message
      apply Or.inl
      change ((state.transactions index).look message).continued = true at continued
      rcases Transaction.look_cases (state.transactions index) message with
        same | ⟨_, _, _, looked⟩
      · rw [same] at continued
        exact continued
      · rw [looked] at continued
        exact continued
  | remove =>
      cases reading : state.reader <;> simp only [step, reading] at taken <;> cases taken
      exact .inl continued
  | complete =>
      cases reading : state.reader <;> simp only [step, reading] at taken <;> cases taken
      exact .inl (kept _ _ (completed _ _) continued)
  | runReadersContinuation =>
      cases reading : state.reader <;> simp only [step, reading] at taken <;> cases taken
      exact continuation_continued continued
  | expire =>
      cases timing : state.timer <;> simp only [step, timing] at taken <;> cases taken
      exact .inl (kept _ _ (completed _ _) continued)
  | runTimersContinuation =>
      cases timing : state.timer <;> simp only [step, timing] at taken <;> cases taken
      exact continuation_continued continued

/-- An entry of a finished transaction is left by a call that puts it too late, and by no
other step. -/
theorem Clean.step_iff {state state' : Transactions} {action : TransactionAction}
    (clean : state.Clean) (consistent : state.Consistent)
    (taken : state.step action = some state') : state'.Clean ↔ state.Timely action := by
  have consistent' := consistent.step taken
  constructor
  · intro clean'
    cases action with
    | put index =>
        simp only [step, transact] at taken
        split at taken
        · cases taken
          cases late : (state.transactions index).continued with
          | false => exact late
          | true =>
              have itself : (state.store index).transactions index =
                  { state.transactions index with phase := .writes, stored := true } :=
                Function.update_self _ _ _
              have gone := clean' index (by rw [itself]; exact late)
              rw [itself] at gone
              change Function.update state.mTransactions _ (some index)
                (state.transactions index).transactionId = none at gone
              rw [Function.update_self] at gone
              cases gone
        · cases taken
    | getAndIncrement | orTimeout | addContinuation | runContinuation | write | withdraw | receive
    | get | remove | complete | runReadersContinuation | fire | expire | runTimersContinuation =>
        exact trivial
  · intro timely index continued
    cases held : state'.mTransactions (state'.transactions index).transactionId with
    | none => rfl
    | some other =>
        rcases consistent'.entry held with ⟨otherCreated, sameId, _⟩
        have created : index < state'.created := by
          apply consistent'.created_of_ne_blank
          intro blank
          rw [blank] at continued
          cases continued
        have owner := consistent'.unique otherCreated created sameId
        rw [owner] at held
        rcases step_entry taken held with before | puts
        · rcases step_continued consistent taken continued with earlier | gone
          · have absent := clean index earlier
            rw [(consistent.entry before).2.1, before] at absent
            cases absent
          · rw [held] at gone
            cases gone
        · rw [puts] at taken timely
          simp only [step, transact] at taken
          split at taken
          · cases taken
            have kept : ((state.store index).transactions index).continued =
                (state.transactions index).continued := by
              apply update_field Transaction.continued
              rfl
            rw [kept] at continued
            exact absurd continued (Bool.eq_false_iff.mp timely)
          · cases taken

/-- As long as every call puts its entry before its continuation has run, no finished
transaction has an entry; and a step from there leaves one exactly when it does not. -/
theorem reachable_clean {state : Transactions}
    (reachable : Reachable (· = initial) TimelySteps state) :
    state.Clean ∧ ∀ action state', state.step action = some state' →
      (state'.Clean ↔ state.Timely action) := by
  have both : state.Consistent ∧ state.Clean := by
    apply reachable.invariant
    · intro start starts
      rw [starts]
      exact ⟨consistent_initial, fun _ continued => nomatch continued⟩
    · intro before after _ held taken
      rcases taken with ⟨action, steps, timely⟩
      exact ⟨held.1.step steps, (held.2.step_iff held.1 steps).mpr timely⟩
  exact ⟨both.2, fun _ _ taken => both.2.step_iff both.1 taken⟩

/-- A call whose timeout has already fired when it puts its entry. -/
def earlyTimeout : List TransactionAction :=
  [.getAndIncrement false, .orTimeout 0, .fire 0, .expire, .addContinuation 0,
    .runContinuation 0, .put 0, .write 0 true]

/-- The call has returned, and its entry stays in the table. -/
theorem earlyTimeout_leaves_entry :
    ∃ state, Reachable (· = initial) Steps state ∧
      (state.transactions 0).phase = .returned ∧ (state.transactions 0).continued = true ∧
      ¬state.Clean := by
  have runs : ∃ state, runAll step initial earlyTimeout = some state ∧
      (state.transactions 0).phase = .returned ∧ (state.transactions 0).continued = true ∧
      (state.transactions 0).transactionId = 1 ∧ state.mTransactions 1 = some 0 :=
    ⟨_, rfl, rfl, rfl, rfl, rfl⟩
  rcases runs with ⟨state, runs, returned, continued, same, held⟩
  refine ⟨state, Reachable.runAll (.initial rfl) runs, returned, continued, ?_⟩
  intro clean
  have absent := clean 0 continued
  rw [same, held] at absent
  cases absent

/-- The answer to the first transaction. -/
def answer : Message where
  type := Message.MESSAGE_TYPE_TRANSACTION
  uri := [109]
  transactionId := 1
  what := 0
  data := [1, 2]
  size := 2

/-- A call that is answered. -/
def answered : List TransactionAction :=
  [.getAndIncrement false, .orTimeout 0, .addContinuation 0, .put 0, .write 0 true,
    .receive answer, .get, .remove, .complete, .runReadersContinuation]

theorem answered_answers :
    ∃ state, runAll step initial answered = some state ∧
      (state.transactions 0).result = some (.ok [1, 2]) ∧
      state.Answers ∧ ∀ action state', state.step action = some state' →
        state.StepAnswers action state' := by
  have runs : ∃ state, runAll step initial answered = some state ∧
      (state.transactions 0).result = some (.ok [1, 2]) :=
    ⟨_, rfl, rfl⟩
  rcases runs with ⟨state, runs, result⟩
  exact ⟨state, runs, result, reachable_answers (Reachable.runAll (.initial rfl) runs)⟩

theorem answered_clean :
    ∃ state, runAll step initial answered = some state ∧ state.Clean ∧
      ∀ action state', state.step action = some state' →
        (state'.Clean ↔ state.Timely action) := by
  refine ⟨_, rfl, reachable_clean ?_⟩
  have first : Reachable (· = initial) TimelySteps initial := .initial rfl
  have started := first.step ⟨.getAndIncrement false, rfl, trivial⟩
  have timed := started.step ⟨.orTimeout 0, rfl, trivial⟩
  have continues := timed.step ⟨.addContinuation 0, rfl, trivial⟩
  have put := continues.step ⟨.put 0, rfl, rfl⟩
  have written := put.step ⟨.write 0 true, rfl, trivial⟩
  have received := written.step ⟨.receive answer, rfl, trivial⟩
  have found := received.step ⟨.get, rfl, trivial⟩
  have removed := found.step ⟨.remove, rfl, trivial⟩
  have completed := removed.step ⟨.complete, rfl, trivial⟩
  exact completed.step ⟨.runReadersContinuation, rfl, trivial⟩

end Transactions

end Plugin

end Mindroid
