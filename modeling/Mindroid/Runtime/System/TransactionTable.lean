import Mindroid.Runtime.System.Transactions

/-!
# The transactions and their table

The transactions have different ids, and the table never maps an id to the transaction of
another one.  A reader that has found a transaction is the only one that has looked its id
up since the entry was put into the table.
-/

set_option autoImplicit false

namespace Mindroid

open Foundation

namespace Plugin

namespace Transaction

/-- What a transaction and its history have to do with each other. -/
structure Consistent (transaction : Transaction) : Prop where
  result_eq : transaction.result = transaction.completedBy.map Completion.result
  /-- A call that puts its entry later has not put it yet. -/
  not_stored : transaction.phase ≠ .writes → transaction.phase ≠ .withdraws →
    transaction.phase ≠ .returned → transaction.stored = false
  runs_done : transaction.phase = .runsContinuation → transaction.completedBy.isSome = true
  /-- The continuation is registered before the entry is put. -/
  continues : transaction.phase = .puts ∨ transaction.stored = true →
    transaction.hasContinuation = true ∨ transaction.completedBy.isSome = true
  first_stored : ∀ {message}, transaction.first = some message →
    transaction.stored = true ∧ message.transactionId = transaction.transactionId
  answered : ∀ {message}, transaction.completedBy = some (.message message) →
    transaction.first = some message
  continued_done : transaction.continued = true → transaction.completedBy.isSome = true

/-- What a step that neither looks the id up nor puts the entry leaves as it is. -/
structure Keeps (transaction transaction' : Transaction) : Prop where
  transactionId : transaction'.transactionId = transaction.transactionId
  stored : transaction'.stored = transaction.stored
  first : transaction'.first = transaction.first
  done : transaction.completedBy.isSome = true → transaction'.completedBy = transaction.completedBy
  withdrawn : transaction.withdrawn = true → transaction'.withdrawn = true

theorem isSome_result {transaction : Transaction} (consistent : transaction.Consistent) :
    transaction.result.isSome = transaction.completedBy.isSome := by
  rw [consistent.result_eq, Option.isSome_map]

theorem complete_of_done {transaction : Transaction} {completion : Completion}
    (done : transaction.result.isSome = true) : transaction.complete completion = transaction :=
  if_pos done

theorem complete_of_not_done {transaction : Transaction} {completion : Completion}
    (waits : ¬transaction.result.isSome = true) :
    transaction.complete completion =
      { transaction with
        result := some completion.result
        hasTimeout := false
        completedBy := some completion } :=
  if_neg waits

theorem keeps_complete {transaction : Transaction} (consistent : transaction.Consistent)
    (completion : Completion) : transaction.Keeps (transaction.complete completion) := by
  by_cases done : transaction.result.isSome = true
  · rw [complete_of_done done]
    exact ⟨rfl, rfl, rfl, fun _ => rfl, id⟩
  · rw [complete_of_not_done done]
    refine ⟨rfl, rfl, rfl, ?_, id⟩
    intro completed
    rw [isSome_result consistent] at done
    exact absurd completed done

theorem isSome_complete {transaction : Transaction} (consistent : transaction.Consistent)
    (completion : Completion) : (transaction.complete completion).completedBy.isSome = true := by
  by_cases done : transaction.result.isSome = true
  · rw [complete_of_done done, ← isSome_result consistent]
    exact done
  · rw [complete_of_not_done done]
    rfl

theorem Consistent.complete {transaction : Transaction} (consistent : transaction.Consistent)
    {completion : Completion}
    (answers : ∀ {message}, completion = .message message → transaction.first = some message) :
    (transaction.complete completion).Consistent := by
  by_cases done : transaction.result.isSome = true
  · rw [complete_of_done done]
    exact consistent
  · rw [complete_of_not_done done]
    constructor
    case result_eq => rfl
    case not_stored => exact consistent.not_stored
    case runs_done => exact fun _ => rfl
    case continues => exact fun _ => .inr rfl
    case first_stored => exact consistent.first_stored
    case answered =>
      intro message completed
      exact answers (Option.some.inj completed)
    case continued_done => exact fun _ => rfl

theorem look_cases (transaction : Transaction) (message : Message) :
    transaction.look message = transaction ∨
      (transaction.transactionId = message.transactionId ∧ transaction.stored = true ∧
        transaction.first = none ∧
        transaction.look message = { transaction with first := some message }) := by
  rw [look]
  split
  · rename_i looked
    exact .inr ⟨looked.1, looked.2.1, looked.2.2, rfl⟩
  · exact .inl rfl

/-- Looking a message up only records it. -/
theorem look_fields (transaction : Transaction) (message : Message) :
    (transaction.look message).transactionId = transaction.transactionId ∧
      (transaction.look message).stored = transaction.stored ∧
      (transaction.look message).completedBy = transaction.completedBy ∧
      (transaction.look message).withdrawn = transaction.withdrawn := by
  rcases look_cases transaction message with same | ⟨_, _, _, looked⟩
  · rw [same]
    exact ⟨rfl, rfl, rfl, rfl⟩
  · rw [looked]
    exact ⟨rfl, rfl, rfl, rfl⟩

theorem Consistent.look {transaction : Transaction} (consistent : transaction.Consistent)
    (message : Message) : (transaction.look message).Consistent := by
  rcases look_cases transaction message with same | ⟨same, stored, unlooked, looked⟩
  · rw [same]
    exact consistent
  · rw [looked]
    constructor
    case result_eq => exact consistent.result_eq
    case not_stored => exact consistent.not_stored
    case runs_done => exact consistent.runs_done
    case continues => exact consistent.continues
    case first_stored =>
      intro other first
      cases first
      exact ⟨stored, same.symm⟩
    case answered =>
      intro other completed
      rw [consistent.answered completed] at unlooked
      cases unlooked
    case continued_done => exact consistent.continued_done

end Transaction

namespace Transactions

/-- What the state of the reader says about the transaction that it has found. -/
def ReaderFits (state : Transactions) : Reader → Prop
  | .idle | .gets _ => True
  | .removes index message | .completes index message =>
      index < state.created ∧ (state.transactions index).first = some message
  | .runsContinuation index =>
      index < state.created ∧ (state.transactions index).completedBy.isSome = true

/-- What the state of the timer says about its transaction. -/
def TimerFits (state : Transactions) : Timer → Prop
  | .idle => True
  | .completes index => index < state.created
  | .runsContinuation index =>
      index < state.created ∧ (state.transactions index).completedBy.isSome = true

structure Consistent (state : Transactions) : Prop where
  blank : ∀ {index}, state.created ≤ index → state.transactions index = {}
  unique : ∀ {index other}, index < state.created → other < state.created →
    (state.transactions index).transactionId = (state.transactions other).transactionId →
      index = other
  records : ∀ index, (state.transactions index).Consistent
  entry : ∀ {transactionId index}, state.mTransactions transactionId = some index →
    index < state.created ∧ (state.transactions index).transactionId = transactionId ∧
      (state.transactions index).stored = true
  reader_fits : state.ReaderFits state.reader
  timer_fits : state.TimerFits state.timer
  /-- Whoever looks an id up removes its entry next. -/
  looked : ∀ {index message}, (state.transactions index).first = some message →
    state.mTransactions (state.transactions index).transactionId = none ∨
      state.reader = .removes index message
  /-- A transaction without an entry has been answered or withdrawn, or is about to be. -/
  fate : ∀ {index}, (state.transactions index).stored = true →
    state.mTransactions (state.transactions index).transactionId = some index ∨
      (state.transactions index).completedBy.isSome = true ∨
      (state.transactions index).withdrawn = true ∨
      ∃ message, state.reader = .completes index message

theorem consistent_initial : initial.Consistent where
  blank _ := rfl
  unique created := absurd created (Nat.not_lt_zero _)
  records _ := by
    constructor
    case result_eq => rfl
    case not_stored => exact fun _ _ _ => rfl
    case runs_done => exact fun running => nomatch running
    case continues =>
      intro puts
      rcases puts with phase | stored
      · cases phase
      · cases stored
    case first_stored => exact fun first => nomatch first
    case answered => exact fun completed => nomatch completed
    case continued_done => exact fun continued => nomatch continued
  entry held := nomatch held
  reader_fits := trivial
  timer_fits := trivial
  looked first := nomatch first
  fate stored := nomatch stored

namespace Consistent

variable {state : Transactions}

theorem created_of_ne_blank (consistent : state.Consistent) {index : Nat}
    (used : state.transactions index ≠ {}) : index < state.created := by
  by_cases fresh : state.created ≤ index
  · exact absurd (consistent.blank fresh) used
  · exact Nat.lt_of_not_le fresh

theorem created_of_phase (consistent : state.Consistent) {index : Nat} {phase : Phase}
    (running : (state.transactions index).phase = phase) (different : phase ≠ .returned) :
    index < state.created := by
  apply consistent.created_of_ne_blank
  intro blank
  rw [blank] at running
  exact different running.symm

/-- A step of one call or completion. -/
theorem modify (consistent : state.Consistent) {index : Nat} {transaction : Transaction}
    (created : index < state.created) (keeps : (state.transactions index).Keeps transaction)
    (record : transaction.Consistent) : (state.modify index transaction).Consistent := by
  have others : ∀ other, (state.transactions other).Keeps
      (Function.update state.transactions index transaction other) := by
    intro other
    by_cases same : other = index
    · rw [same, Function.update_self]
      exact keeps
    · rw [Function.update_of_ne same]
      exact ⟨rfl, rfl, rfl, fun _ => rfl, id⟩
  have done : ∀ {other}, (state.transactions other).completedBy.isSome = true →
      (Function.update state.transactions index transaction other).completedBy.isSome = true := by
    intro other completed
    rw [(others other).done completed]
    exact completed
  constructor
  case blank =>
    intro other fresh
    change Function.update state.transactions index transaction other = {}
    rw [Function.update_of_ne (Nat.ne_of_gt (Nat.lt_of_lt_of_le created fresh))]
    exact consistent.blank fresh
  case unique =>
    intro first second firstCreated secondCreated same
    change (Function.update state.transactions index transaction first).transactionId =
      (Function.update state.transactions index transaction second).transactionId at same
    rw [(others first).transactionId, (others second).transactionId] at same
    exact consistent.unique firstCreated secondCreated same
  case records =>
    intro other
    change (Function.update state.transactions index transaction other).Consistent
    by_cases same : other = index
    · rw [same, Function.update_self]
      exact record
    · rw [Function.update_of_ne same]
      exact consistent.records other
  case entry =>
    intro transactionId other held
    change other < state.created ∧
      (Function.update state.transactions index transaction other).transactionId =
          transactionId ∧
        (Function.update state.transactions index transaction other).stored = true
    rw [(others other).transactionId, (others other).stored]
    exact consistent.entry held
  case reader_fits =>
    have fits := consistent.reader_fits
    change ReaderFits (state.modify index transaction) state.reader
    cases reading : state.reader with
    | idle | gets message => exact trivial
    | removes other message | completes other message =>
        rw [reading] at fits
        refine ⟨fits.1, ?_⟩
        change (Function.update state.transactions index transaction other).first = some message
        rw [(others other).first]
        exact fits.2
    | runsContinuation other =>
        rw [reading] at fits
        exact ⟨fits.1, done fits.2⟩
  case timer_fits =>
    have fits := consistent.timer_fits
    change TimerFits (state.modify index transaction) state.timer
    cases timing : state.timer with
    | idle => exact trivial
    | completes other =>
        rw [timing] at fits
        exact fits
    | runsContinuation other =>
        rw [timing] at fits
        exact ⟨fits.1, done fits.2⟩
  case looked =>
    intro other message first
    change (Function.update state.transactions index transaction other).first = some message
      at first
    rw [(others other).first] at first
    change state.mTransactions
        (Function.update state.transactions index transaction other).transactionId = none ∨ _
    rw [(others other).transactionId]
    exact consistent.looked first
  case fate =>
    intro other stored
    change (Function.update state.transactions index transaction other).stored = true at stored
    rw [(others other).stored] at stored
    change state.mTransactions
        (Function.update state.transactions index transaction other).transactionId =
          some other ∨ _
    rw [(others other).transactionId]
    rcases consistent.fate stored with held | completed | withdrawn | answered
    · exact .inl held
    · exact .inr (.inl (done completed))
    · exact .inr (.inr (.inl ((others other).withdrawn withdrawn)))
    · exact .inr (.inr (.inr answered))

theorem created_of_stored (consistent : state.Consistent) {index : Nat}
    (stored : (state.transactions index).stored = true) : index < state.created := by
  apply consistent.created_of_ne_blank
  intro blank
  rw [blank] at stored
  cases stored

theorem created_of_first (consistent : state.Consistent) {index : Nat} {message : Message}
    (first : (state.transactions index).first = some message) : index < state.created :=
  consistent.created_of_stored ((consistent.records index).first_stored first).1

/-- The reader goes on, unless it has to remove an entry or to complete a promise. -/
theorem setReader (consistent : state.Consistent) (reader : Reader)
    (fits : state.ReaderFits reader)
    (removed : ∀ index message, state.reader ≠ .removes index message)
    (completed : ∀ index message, state.reader = .completes index message →
      (state.transactions index).completedBy.isSome = true) :
    { state with reader := reader }.Consistent where
  blank := consistent.blank
  unique := consistent.unique
  records := consistent.records
  entry := consistent.entry
  reader_fits := by
    change ReaderFits { state with reader := reader } reader
    cases reader with
    | idle | gets message => exact trivial
    | removes index message | completes index message | runsContinuation index => exact fits
  timer_fits := by
    have fits := consistent.timer_fits
    change TimerFits { state with reader := reader } state.timer
    cases timing : state.timer with
    | idle => exact trivial
    | completes index | runsContinuation index =>
        rw [timing] at fits
        exact fits
  looked := by
    intro index message first
    rcases consistent.looked first with gone | removes
    · exact .inl gone
    · exact absurd removes (removed index message)
  fate := by
    intro index stored
    rcases consistent.fate stored with held | done | withdrawn | ⟨message, completes⟩
    · exact .inl held
    · exact .inr (.inl done)
    · exact .inr (.inr (.inl withdrawn))
    · exact .inr (.inl (completed index message completes))

theorem setTimer (consistent : state.Consistent) (timer : Timer)
    (fits : state.TimerFits timer) : { state with timer := timer }.Consistent where
  blank := consistent.blank
  unique := consistent.unique
  records := consistent.records
  entry := consistent.entry
  reader_fits := by
    have fits := consistent.reader_fits
    change ReaderFits { state with timer := timer } state.reader
    cases reading : state.reader with
    | idle | gets message => exact trivial
    | removes index message | completes index message | runsContinuation index =>
        rw [reading] at fits
        exact fits
  timer_fits := by
    change TimerFits { state with timer := timer } timer
    cases timer with
    | idle => exact trivial
    | completes index | runsContinuation index => exact fits
  looked := consistent.looked
  fate := consistent.fate

/-- The entry of a transaction that has been answered or withdrawn may be removed. -/
theorem erase (consistent : state.Consistent) {transactionId : Int32}
    (served : ∀ index, (state.transactions index).transactionId = transactionId →
      index < state.created → (state.transactions index).completedBy.isSome = true ∨
        (state.transactions index).withdrawn = true) :
    (state.erase transactionId).Consistent where
  blank := consistent.blank
  unique := consistent.unique
  records := consistent.records
  entry := by
    intro other index held
    change Function.update state.mTransactions transactionId none other = some index at held
    by_cases same : other = transactionId
    · rw [same, Function.update_self] at held
      cases held
    · rw [Function.update_of_ne same] at held
      exact consistent.entry held
  reader_fits := by
    have fits := consistent.reader_fits
    change ReaderFits (state.erase transactionId) state.reader
    cases reading : state.reader with
    | idle | gets message => exact trivial
    | removes index message | completes index message | runsContinuation index =>
        rw [reading] at fits
        exact fits
  timer_fits := by
    have fits := consistent.timer_fits
    change TimerFits (state.erase transactionId) state.timer
    cases timing : state.timer with
    | idle => exact trivial
    | completes index | runsContinuation index =>
        rw [timing] at fits
        exact fits
  looked := by
    intro index message first
    rcases consistent.looked first with gone | removes
    · apply Or.inl
      change Function.update state.mTransactions transactionId none
        (state.transactions index).transactionId = none
      by_cases same : (state.transactions index).transactionId = transactionId
      · rw [same, Function.update_self]
      · rw [Function.update_of_ne same]
        exact gone
    · exact .inr removes
  fate := by
    intro index stored
    rcases consistent.fate stored with held | other
    · by_cases same : (state.transactions index).transactionId = transactionId
      · rcases served index same (consistent.created_of_stored stored) with done | withdrawn
        · exact .inr (.inl done)
        · exact .inr (.inr (.inl withdrawn))
      · apply Or.inl
        change Function.update state.mTransactions transactionId none
          (state.transactions index).transactionId = some index
        rw [Function.update_of_ne same]
        exact held
    · exact .inr other

/-- The continuation of a promise that is done. -/
theorem continuation (consistent : state.Consistent) {index : Nat}
    (created : index < state.created)
    (done : (state.transactions index).completedBy.isSome = true) :
    (state.continuation index).Consistent := by
  have gone : (state.erase (state.transactions index).transactionId).Consistent := by
    apply consistent.erase
    intro other same otherCreated
    rw [consistent.unique otherCreated created same]
    exact .inl done
  apply gone.modify created
  · exact ⟨rfl, rfl, rfl, fun _ => rfl, id⟩
  · have record := consistent.records index
    constructor
    case result_eq => exact record.result_eq
    case not_stored => exact record.not_stored
    case runs_done => exact record.runs_done
    case continues => exact record.continues
    case first_stored => exact record.first_stored
    case answered => exact record.answered
    case continued_done => exact fun _ => done

theorem start (consistent : state.Consistent) (oneway : Bool)
    (distinct : ∀ index < state.created,
      (state.transactions index).transactionId ≠ state.mTransactionIdGenerator) :
    (state.start oneway).Consistent := by
  have others : ∀ {index}, index ≠ state.created →
      (state.start oneway).transactions index = state.transactions index :=
    fun different => Function.update_of_ne different _ _
  have itself : (state.start oneway).transactions state.created =
      { transactionId := state.mTransactionIdGenerator
        phase := if oneway then .writes else .addsTimeout } :=
    Function.update_self _ _ _
  have older : ∀ {index}, index < state.created →
      (state.start oneway).transactions index = state.transactions index :=
    fun created => others (Nat.ne_of_lt created)
  constructor
  case blank =>
    intro index fresh
    rw [others (Nat.ne_of_gt fresh)]
    exact consistent.blank (Nat.le_of_succ_le fresh)
  case unique =>
    intro index other created otherCreated same
    rcases Nat.lt_succ_iff_lt_or_eq.mp created with before | rfl
    · rcases Nat.lt_succ_iff_lt_or_eq.mp otherCreated with otherBefore | rfl
      · rw [older before, older otherBefore] at same
        exact consistent.unique before otherBefore same
      · rw [older before, itself] at same
        exact absurd same (distinct index before)
    · rcases Nat.lt_succ_iff_lt_or_eq.mp otherCreated with otherBefore | rfl
      · rw [older otherBefore, itself] at same
        exact absurd same.symm (distinct other otherBefore)
      · rfl
  case records =>
    intro index
    by_cases same : index = state.created
    · rw [same, itself]
      constructor
      case result_eq => rfl
      case not_stored => exact fun _ _ _ => rfl
      case runs_done =>
        intro running
        cases oneway <;> cases running
      case continues =>
        intro puts
        rcases puts with phase | stored
        · cases oneway <;> cases phase
        · cases stored
      case first_stored => exact fun first => nomatch first
      case answered => exact fun completed => nomatch completed
      case continued_done => exact fun continued => nomatch continued
    · rw [others same]
      exact consistent.records index
  case entry =>
    intro transactionId index held
    rcases consistent.entry held with ⟨created, same, stored⟩
    rw [older created]
    exact ⟨Nat.lt_succ_of_lt created, same, stored⟩
  case reader_fits =>
    have fits := consistent.reader_fits
    change ReaderFits (state.start oneway) state.reader
    cases reading : state.reader with
    | idle | gets message => exact trivial
    | removes index message | completes index message | runsContinuation index =>
        rw [reading] at fits
        refine ⟨Nat.lt_succ_of_lt fits.1, ?_⟩
        rw [older fits.1]
        exact fits.2
  case timer_fits =>
    have fits := consistent.timer_fits
    change TimerFits (state.start oneway) state.timer
    cases timing : state.timer with
    | idle => exact trivial
    | completes index =>
        rw [timing] at fits
        exact Nat.lt_succ_of_lt fits
    | runsContinuation index =>
        rw [timing] at fits
        refine ⟨Nat.lt_succ_of_lt fits.1, ?_⟩
        rw [older fits.1]
        exact fits.2
  case looked =>
    intro index message first
    by_cases same : index = state.created
    · rw [same, itself] at first
      cases first
    · rw [others same] at first ⊢
      exact consistent.looked first
  case fate =>
    intro index stored
    by_cases same : index = state.created
    · rw [same, itself] at stored
      cases stored
    · rw [others same] at stored ⊢
      exact consistent.fate stored

/-- The entry of a transaction that has not been put yet. -/
theorem store (consistent : state.Consistent) {index : Nat}
    (puts : (state.transactions index).phase = .puts) : (state.store index).Consistent := by
  have created := consistent.created_of_phase puts (by decide)
  have record := consistent.records index
  have unstored : (state.transactions index).stored = false := by
    apply record.not_stored
    all_goals
      rw [puts]
      decide
  have unlooked : (state.transactions index).first = none := by
    cases first : (state.transactions index).first with
    | none => rfl
    | some message =>
        rw [(record.first_stored first).1] at unstored
        cases unstored
  have others : ∀ {other}, other ≠ index →
      (state.store index).transactions other = state.transactions other :=
    fun different => Function.update_of_ne different _ _
  have itself : (state.store index).transactions index =
      { state.transactions index with phase := .writes, stored := true } :=
    Function.update_self _ _ _
  have sameId : ∀ other, ((state.store index).transactions other).transactionId =
      (state.transactions other).transactionId := by
    intro other
    by_cases same : other = index
    · rw [same, itself]
    · rw [others same]
  have sameFirst : ∀ other, ((state.store index).transactions other).first =
      (state.transactions other).first := by
    intro other
    by_cases same : other = index
    · rw [same, itself]
    · rw [others same]
  have done : ∀ {other}, (state.transactions other).completedBy.isSome = true →
      ((state.store index).transactions other).completedBy.isSome = true := by
    intro other completed
    by_cases same : other = index
    · rw [same, itself]
      rw [same] at completed
      exact completed
    · rw [others same]
      exact completed
  have tableSelf : (state.store index).mTransactions (state.transactions index).transactionId =
      some index :=
    Function.update_self _ _ _
  have tableOther : ∀ {other}, other < state.created → other ≠ index →
      (state.store index).mTransactions (state.transactions other).transactionId =
        state.mTransactions (state.transactions other).transactionId := by
    intro other otherCreated different
    apply Function.update_of_ne
    intro same
    exact different (consistent.unique otherCreated created same)
  constructor
  case blank =>
    intro other fresh
    rw [others (Nat.ne_of_gt (Nat.lt_of_lt_of_le created fresh))]
    exact consistent.blank fresh
  case unique =>
    intro first second firstCreated secondCreated same
    rw [sameId, sameId] at same
    exact consistent.unique firstCreated secondCreated same
  case records =>
    intro other
    by_cases same : other = index
    · rw [same, itself]
      constructor
      case result_eq => exact record.result_eq
      case not_stored => exact fun writes => absurd rfl writes
      case runs_done => exact fun running => nomatch running
      case continues => exact fun _ => record.continues (.inl puts)
      case first_stored =>
        intro message first
        exact ⟨rfl, (record.first_stored first).2⟩
      case answered => exact record.answered
      case continued_done => exact record.continued_done
    · rw [others same]
      exact consistent.records other
  case entry =>
    intro transactionId other held
    by_cases same : transactionId = (state.transactions index).transactionId
    · rw [same, tableSelf, Option.some.injEq] at held
      rw [← held, same, itself]
      exact ⟨created, rfl, rfl⟩
    · have before : state.mTransactions transactionId = some other := by
        rw [← held]
        exact (Function.update_of_ne same _ _).symm
      rcases consistent.entry before with ⟨otherCreated, sameOther, stored⟩
      rw [sameId, others]
      · exact ⟨otherCreated, sameOther, stored⟩
      · intro equal
        rw [equal, unstored] at stored
        cases stored
  case reader_fits =>
    have fits := consistent.reader_fits
    change ReaderFits (state.store index) state.reader
    cases reading : state.reader with
    | idle | gets message => exact trivial
    | removes other message | completes other message =>
        rw [reading] at fits
        refine ⟨fits.1, ?_⟩
        rw [sameFirst]
        exact fits.2
    | runsContinuation other =>
        rw [reading] at fits
        exact ⟨fits.1, done fits.2⟩
  case timer_fits =>
    have fits := consistent.timer_fits
    change TimerFits (state.store index) state.timer
    cases timing : state.timer with
    | idle => exact trivial
    | completes other =>
        rw [timing] at fits
        exact fits
    | runsContinuation other =>
        rw [timing] at fits
        exact ⟨fits.1, done fits.2⟩
  case looked =>
    intro other message first
    rw [sameFirst] at first
    have different : other ≠ index := by
      intro equal
      rw [equal, unlooked] at first
      cases first
    rw [sameId, tableOther (consistent.created_of_first first) different]
    exact consistent.looked first
  case fate =>
    intro other stored
    by_cases same : other = index
    · rw [same, sameId]
      exact .inl tableSelf
    · rw [others same] at stored ⊢
      rw [tableOther (consistent.created_of_stored stored) same]
      exact consistent.fate stored

theorem reader_look_none {message : Message}
    (free : state.mTransactions message.transactionId = none) :
    (state.look message).reader = .idle := by
  rw [Transactions.look, free]

theorem reader_look_some {message : Message} {index : Nat}
    (held : state.mTransactions message.transactionId = some index) :
    (state.look message).reader = .removes index message := by
  rw [Transactions.look, held]

/-- The reader has found the transaction of a message, or there is none. -/
theorem look (consistent : state.Consistent) {message : Message}
    (gets : state.reader = .gets message) : (state.look message).Consistent := by
  have fields := fun index =>
    Transaction.look_fields (state.transactions index) message
  -- the entry that is found belongs to a transaction that nobody has looked up
  have found : ∀ {index}, state.mTransactions message.transactionId = some index →
      index < state.created ∧ (state.transactions index).transactionId = message.transactionId ∧
        ((state.transactions index).look message).first = some message := by
    intro index held
    rcases consistent.entry held with ⟨created, same, stored⟩
    refine ⟨created, same, ?_⟩
    rw [Transaction.look, if_pos]
    refine ⟨same, stored, ?_⟩
    cases first : (state.transactions index).first with
    | none => rfl
    | some other =>
        rcases consistent.looked first with gone | removes
        · rw [same, held] at gone
          cases gone
        · rw [gets] at removes
          cases removes
  constructor
  case blank =>
    intro index fresh
    change (state.transactions index).look message = {}
    rw [consistent.blank fresh, Transaction.look, if_neg]
    exact fun looked => nomatch looked.2.1
  case unique =>
    intro index other created otherCreated same
    change ((state.transactions index).look message).transactionId =
      ((state.transactions other).look message).transactionId at same
    rw [(fields index).1, (fields other).1] at same
    exact consistent.unique created otherCreated same
  case records => exact fun index => (consistent.records index).look message
  case entry =>
    intro transactionId index held
    change index < state.created ∧
      ((state.transactions index).look message).transactionId = transactionId ∧
        ((state.transactions index).look message).stored = true
    rw [(fields index).1, (fields index).2.1]
    exact consistent.entry held
  case reader_fits =>
    cases held : state.mTransactions message.transactionId with
    | none =>
        rw [reader_look_none held]
        exact trivial
    | some index =>
        rw [reader_look_some held]
        exact ⟨(found held).1, (found held).2.2⟩
  case timer_fits =>
    have fits := consistent.timer_fits
    change TimerFits (state.look message) state.timer
    cases timing : state.timer with
    | idle => exact trivial
    | completes index =>
        rw [timing] at fits
        exact fits
    | runsContinuation index =>
        rw [timing] at fits
        refine ⟨fits.1, ?_⟩
        change ((state.transactions index).look message).completedBy.isSome = true
        rw [(fields index).2.2.1]
        exact fits.2
  case looked =>
    intro index other first
    change state.mTransactions ((state.transactions index).look message).transactionId = none ∨
      (state.look message).reader = .removes index other
    rw [(fields index).1]
    rcases Transaction.look_cases (state.transactions index) message with
      same | ⟨same, stored, _, looked⟩
    · change ((state.transactions index).look message).first = some other at first
      rw [same] at first
      rcases consistent.looked first with gone | removes
      · exact .inl gone
      · rw [gets] at removes
        cases removes
    · change ((state.transactions index).look message).first = some other at first
      rw [looked] at first
      cases first
      rw [same]
      cases held : state.mTransactions message.transactionId with
      | none => exact .inl rfl
      | some found' =>
          have owner : found' = index :=
            consistent.unique (found held).1 (consistent.created_of_stored stored)
              ((found held).2.1.trans same.symm)
          rw [owner] at held
          exact .inr (reader_look_some held)
  case fate =>
    intro index stored
    change ((state.transactions index).look message).stored = true at stored
    rw [(fields index).2.1] at stored
    change state.mTransactions ((state.transactions index).look message).transactionId =
        some index ∨
      ((state.transactions index).look message).completedBy.isSome = true ∨
        ((state.transactions index).look message).withdrawn = true ∨ _
    rw [(fields index).1, (fields index).2.2.1, (fields index).2.2.2]
    rcases consistent.fate stored with held | done | withdrawn | ⟨other, completes⟩
    · exact .inl held
    · exact .inr (.inl done)
    · exact .inr (.inr (.inl withdrawn))
    · rw [gets] at completes
      cases completes

/-- The reader removes the entry that it has found and goes on to complete the promise. -/
theorem remove (consistent : state.Consistent) {index : Nat} {message : Message}
    (removes : state.reader = .removes index message) :
    { state.erase message.transactionId with
      reader := .completes index message }.Consistent := by
  have fits := consistent.reader_fits
  rw [removes] at fits
  have same : message.transactionId = (state.transactions index).transactionId :=
    ((consistent.records index).first_stored fits.2).2
  constructor
  case blank => exact consistent.blank
  case unique => exact consistent.unique
  case records => exact consistent.records
  case entry =>
    intro transactionId other held
    change Function.update state.mTransactions message.transactionId none transactionId =
      some other at held
    by_cases gone : transactionId = message.transactionId
    · rw [gone, Function.update_self] at held
      cases held
    · rw [Function.update_of_ne gone] at held
      exact consistent.entry held
  case reader_fits => exact fits
  case timer_fits =>
    have timerFits := consistent.timer_fits
    change TimerFits _ state.timer
    cases timing : state.timer with
    | idle => exact trivial
    | completes other | runsContinuation other =>
        rw [timing] at timerFits
        exact timerFits
  case looked =>
    intro other first looked
    apply Or.inl
    change Function.update state.mTransactions message.transactionId none
      (state.transactions other).transactionId = none
    by_cases gone : (state.transactions other).transactionId = message.transactionId
    · rw [gone, Function.update_self]
    · rw [Function.update_of_ne gone]
      rcases consistent.looked looked with absent | removesOther
      · exact absent
      · rw [removes] at removesOther
        cases removesOther
        exact absurd same.symm gone
  case fate =>
    intro other stored
    change Function.update state.mTransactions message.transactionId none
        (state.transactions other).transactionId = some other ∨ _
    by_cases gone : (state.transactions other).transactionId = message.transactionId
    · rw [consistent.unique (consistent.created_of_stored stored) fits.1 (gone.trans same)]
      exact .inr (.inr (.inr ⟨message, rfl⟩))
    · rw [Function.update_of_ne gone]
      rcases consistent.fate stored with held | done | withdrawn | ⟨_, completes⟩
      · exact .inl held
      · exact .inr (.inl done)
      · exact .inr (.inr (.inl withdrawn))
      · rw [removes] at completes
        cases completes

/-- A step of a call that only changes the call. -/
theorem goOn (consistent : state.Consistent) {index : Nat} {phase : Phase}
    (runs : (state.transactions index).phase = phase) (different : phase ≠ .returned)
    (next : Phase) (hasContinuation hasTimeout : Bool)
    (stored : next ≠ .writes → next ≠ .withdraws → next ≠ .returned →
      phase ≠ .writes ∧ phase ≠ .withdraws)
    (done : next = .runsContinuation →
      (state.transactions index).completedBy.isSome = true)
    (kept : (state.transactions index).hasContinuation = true → hasContinuation = true)
    (continues : next = .puts → hasContinuation = true ∨
      (state.transactions index).completedBy.isSome = true) :
    (state.modify index
      { state.transactions index with
        phase := next, hasContinuation := hasContinuation, hasTimeout := hasTimeout }).Consistent := by
  have record := consistent.records index
  apply consistent.modify (consistent.created_of_phase runs different)
  · exact ⟨rfl, rfl, rfl, fun _ => rfl, id⟩
  · constructor
    case result_eq => exact record.result_eq
    case not_stored =>
      intro writes withdraws returned
      rcases stored writes withdraws returned with ⟨before, before'⟩
      apply record.not_stored
      · rw [runs]
        exact before
      · rw [runs]
        exact before'
      · rw [runs]
        exact different
    case runs_done => exact done
    case continues =>
      intro puts
      rcases puts with phase | stored
      · exact continues phase
      · rcases record.continues (.inr stored) with registered | completed
        · exact .inl (kept registered)
        · exact .inr completed
    case first_stored => exact record.first_stored
    case answered => exact record.answered
    case continued_done => exact record.continued_done

theorem transact (consistent : state.Consistent) {state' : Transactions} (index : Nat)
    (action : TransactionAction) (taken : state.transact index action = some state') :
    state'.Consistent := by
  have record := consistent.records index
  cases action with
  | orTimeout _ =>
      simp only [Transactions.transact] at taken
      split at taken
      · rename_i runs
        cases taken
        exact consistent.goOn runs (by decide) _ _ _ (by decide) nofun id nofun
      · cases taken
  | addContinuation _ =>
      simp only [Transactions.transact] at taken
      split at taken
      · rename_i runs
        cases taken
        split
        · rename_i done
          rw [Transaction.isSome_result record] at done
          exact consistent.goOn runs (by decide) _ _ _ (by decide) (fun _ => done) id nofun
        · exact consistent.goOn runs (by decide) _ _ _ (by decide) nofun (fun _ => rfl)
            fun _ => .inl rfl
      · cases taken
  | runContinuation _ =>
      simp only [Transactions.transact] at taken
      split at taken
      · rename_i runs
        cases taken
        have done := record.runs_done runs
        have gone := consistent.goOn runs (by decide) .puts
          (state.transactions index).hasContinuation (state.transactions index).hasTimeout
          (by decide) nofun id fun _ => .inr done
        apply gone.continuation (consistent.created_of_phase runs (by decide))
        change (Function.update state.transactions index _ index).completedBy.isSome = true
        rw [Function.update_self]
        exact done
      · cases taken
  | put _ =>
      simp only [Transactions.transact] at taken
      split at taken
      · rename_i runs
        cases taken
        exact consistent.store runs
      · cases taken
  | write _ written =>
      simp only [Transactions.transact] at taken
      split at taken
      · rename_i runs
        cases taken
        cases written
        · exact consistent.goOn runs (by decide) _ _ _ (by decide) nofun id nofun
        · exact consistent.goOn runs (by decide) _ _ _ (by decide) nofun id nofun
      · cases taken
  | withdraw _ =>
      simp only [Transactions.transact] at taken
      split at taken
      · rename_i runs
        cases taken
        have created := consistent.created_of_phase runs (by decide)
        have marked : (state.modify index
            { state.transactions index with
              phase := .returned, withdrawn := true }).Consistent := by
          apply consistent.modify created
          · exact ⟨rfl, rfl, rfl, fun _ => rfl, fun _ => rfl⟩
          · constructor
            case result_eq => exact record.result_eq
            case not_stored => exact fun _ _ returned => absurd rfl returned
            case runs_done => exact fun running => nomatch running
            case continues =>
              intro puts
              rcases puts with phase | stored
              · cases phase
              · exact record.continues (.inr stored)
            case first_stored => exact record.first_stored
            case answered => exact record.answered
            case continued_done => exact record.continued_done
        apply marked.erase
        intro other same otherCreated
        have owner : other = index := by
          by_cases equal : other = index
          · exact equal
          · change (Function.update state.transactions index _ other).transactionId = _ at same
            rw [Function.update_of_ne equal] at same
            exact consistent.unique otherCreated created same
        rw [owner]
        apply Or.inr
        change (Function.update state.transactions index _ index).withdrawn = true
        rw [Function.update_self]
      · cases taken
  | getAndIncrement | receive | get | remove | complete | runReadersContinuation | fire | expire
  | runTimersContinuation => cases taken

/-- The completion of a promise by a message or by the timeout. -/
theorem complete (consistent : state.Consistent) {index : Nat} (completion : Completion)
    (created : index < state.created)
    (answers : ∀ {message}, completion = .message message →
      (state.transactions index).first = some message) :
    (state.modify index ((state.transactions index).complete completion)).Consistent :=
  consistent.modify created (Transaction.keeps_complete (consistent.records index) completion)
    ((consistent.records index).complete answers)

theorem isSome_completed (consistent : state.Consistent) (index : Nat) (completion : Completion) :
    ((state.modify index ((state.transactions index).complete completion)).transactions
      index).completedBy.isSome = true := by
  change (Function.update state.transactions index _ index).completedBy.isSome = true
  rw [Function.update_self]
  exact Transaction.isSome_complete (consistent.records index) completion

theorem step (consistent : state.Consistent) {state' : Transactions}
    {action : TransactionAction} (taken : state.step action = some state') :
    state'.Consistent := by
  cases action with
  | getAndIncrement oneway =>
      simp only [Transactions.step] at taken
      split at taken
      · rename_i distinct
        cases taken
        exact consistent.start oneway distinct
      · cases taken
  | orTimeout index => exact consistent.transact index (.orTimeout index) taken
  | addContinuation index => exact consistent.transact index (.addContinuation index) taken
  | runContinuation index => exact consistent.transact index (.runContinuation index) taken
  | put index => exact consistent.transact index (.put index) taken
  | write index written => exact consistent.transact index (.write index written) taken
  | withdraw index => exact consistent.transact index (.withdraw index) taken
  | receive message =>
      simp only [Transactions.step] at taken
      split at taken
      · rename_i idle
        cases taken
        apply consistent.setReader (.gets message) trivial
        · intro index other removes
          rw [idle] at removes
          cases removes
        · intro index other completes
          rw [idle] at completes
          cases completes
      · cases taken
  | get =>
      cases reading : state.reader <;> simp only [Transactions.step, reading] at taken <;>
        cases taken
      exact consistent.look reading
  | remove =>
      cases reading : state.reader <;> simp only [Transactions.step, reading] at taken <;>
        cases taken
      exact consistent.remove reading
  | complete =>
      have fits := consistent.reader_fits
      cases reading : state.reader <;> simp only [Transactions.step, reading] at taken <;>
        cases taken
      rename_i index message
      rw [reading] at fits
      have completed := consistent.complete (.message message) fits.1 (by
        intro other same
        cases same
        exact fits.2)
      have done := consistent.isSome_completed index (.message message)
      apply completed.setReader
      · split
        · exact ⟨fits.1, done⟩
        · exact trivial
      · intro other otherMessage removes
        have absurdly := reading.symm.trans removes
        cases absurdly
      · intro other otherMessage completes
        have same := reading.symm.trans completes
        cases same
        exact done
  | runReadersContinuation =>
      have fits := consistent.reader_fits
      cases reading : state.reader <;> simp only [Transactions.step, reading] at taken <;>
        cases taken
      rename_i index
      rw [reading] at fits
      apply (consistent.continuation fits.1 fits.2).setReader .idle trivial
      · intro other message removes
        have absurdly := reading.symm.trans removes
        cases absurdly
      · intro other message completes
        have absurdly := reading.symm.trans completes
        cases absurdly
  | fire index =>
      simp only [Transactions.step] at taken
      split at taken
      · rename_i fires
        cases taken
        have record := consistent.records index
        have created : index < state.created := by
          apply consistent.created_of_ne_blank
          intro blank
          rw [blank] at fires
          cases fires.1
        have disarmed : (state.modify index
            { state.transactions index with hasTimeout := false }).Consistent := by
          apply consistent.modify created
          · exact ⟨rfl, rfl, rfl, fun _ => rfl, id⟩
          · exact ⟨record.result_eq, record.not_stored, record.runs_done, record.continues,
              record.first_stored, record.answered, record.continued_done⟩
        exact disarmed.setTimer (.completes index) created
      · cases taken
  | expire =>
      have fits := consistent.timer_fits
      cases timing : state.timer <;> simp only [Transactions.step, timing] at taken <;>
        cases taken
      rename_i index
      rw [timing] at fits
      have completed := consistent.complete .timeout fits nofun
      have done := consistent.isSome_completed index .timeout
      apply completed.setTimer
      split
      · exact ⟨fits, done⟩
      · exact trivial
  | runTimersContinuation =>
      have fits := consistent.timer_fits
      cases timing : state.timer <;> simp only [Transactions.step, timing] at taken <;>
        cases taken
      rename_i index
      rw [timing] at fits
      exact (consistent.continuation fits.1 fits.2).setTimer .idle trivial

end Consistent

end Transactions

end Plugin

end Mindroid
