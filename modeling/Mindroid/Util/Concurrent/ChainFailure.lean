import Mindroid.Util.Concurrent.Chain

/-!
# What a failed promise of a chain holds

Every promise that fails because of an exception holds what its origin puts there,
or that wrapped once.  Whether this is the exception itself depends on `clone()`
alone, which the `catch` branches and `completeWith(const Exception&)` call.
-/

set_option autoImplicit false

namespace Mindroid

theorem isCompletion_toCompletionException (exception : Exception) :
    (toCompletionException exception).isCompletion = true := by
  rw [toCompletionException]
  split
  · assumption
  · rfl

/-- Wrapping twice is wrapping once. -/
theorem toCompletionException_of_isCompletion {exception : Exception}
    (completion : exception.isCompletion = true) :
    toCompletionException exception = exception :=
  if_pos completion

theorem isCompletion_caught (thrown : UserThrow) : (caught thrown).isCompletion = true := by
  cases thrown with
  | exception exception => exact isCompletion_toCompletionException exception.clone
  | stdException what => rfl
  | unknown => rfl

namespace Chain

variable {V : Type} [Inhabited V]

/-- What a promise may hold when it fails because of the origin. -/
def Origin.Holds : Origin → Exception → Prop
  | .thrown failure, held => held = caught failure
  | .set exception, held => held = exception ∨ held = toCompletionException exception
  | .setReference exception, held =>
      held = exception.clone ∨ held = toCompletionException exception.clone

/-- The outcome is a failure exactly when it has an origin, and holds what that
allows. -/
def Traces : Outcome V → Option Origin → Prop
  | .ok _, none => True
  | .error held, some origin => origin.Holds held
  | _, _ => False

theorem Origin.holds_toCompletionException {origin : Origin} {held : Exception}
    (holds : origin.Holds held) : origin.Holds (toCompletionException held) := by
  cases origin with
  | thrown failure =>
      rw [Holds] at holds ⊢
      rw [holds, toCompletionException_of_isCompletion (isCompletion_caught failure)]
  | set exception =>
      rcases holds with same | wrapped
      · exact .inr (by rw [same])
      · right
        rw [wrapped, toCompletionException_of_isCompletion
          (isCompletion_toCompletionException exception)]
  | setReference exception =>
      rcases holds with same | wrapped
      · exact .inr (by rw [same])
      · right
        rw [wrapped, toCompletionException_of_isCompletion
          (isCompletion_toCompletionException exception.clone)]

section Traces

variable {outcome : Outcome V} {origin : Option Origin}

omit [Inhabited V] in
theorem traces_tryCall (call : Except UserThrow V) : Traces (tryCall call) (thrownBy call) := by
  cases call with
  | ok => exact trivial
  | error thrown => exact rfl

omit [Inhabited V] in
theorem Traces.relay (traces : Traces outcome origin) :
    Traces (RelayAction.run outcome) origin := by
  cases outcome with
  | ok => exact traces
  | error held =>
      cases origin with
      | none => exact traces
      | some origin => exact Origin.holds_toCompletionException traces

omit [Inhabited V] in
/-- An action that keeps what it found unless user code throws. -/
theorem Traces.keep (traces : Traces outcome origin) (call : Except UserThrow Unit) :
    Traces (tryCall call >>= fun _ => outcome) ((thrownBy call).or origin) := by
  cases call with
  | ok => exact traces
  | error thrown => exact rfl

omit [Inhabited V] in
theorem traces_then_ok (call : Except UserThrow Unit) (result : V) :
    Traces (tryCall call >>= fun _ => (.ok result : Outcome V)) (thrownBy call) := by
  cases call with
  | ok => exact trivial
  | error thrown => exact rfl

omit [Inhabited V] in
theorem Traces.composed (traces : Traces outcome origin) (function : Except UserThrow Bool) :
    Traces (composed (function.map fun notNull => if notNull then some outcome else none))
      (composedOrigin function origin) := by
  cases function with
  | error thrown => exact rfl
  | ok notNull =>
      cases notNull with
      | false => exact rfl
      | true => exact traces.relay

end Traces

/-- Along a chain failures keep their origin. -/
theorem traces (chain : Chain V) : Traces chain.outcome chain.origin := by
  induction chain with
  | complete => exact trivial
  | completeWith exception => exact .inl rfl
  | completeWithReference exception => exact .inl rfl
  | thenApply supplier function ih =>
      rw [outcome, origin]
      cases supplied : supplier.outcome with
      | ok result => exact traces_tryCall (function result)
      | error exception =>
          rw [supplied] at ih
          exact ih.relay
  | thenApplyBoth supplier function ih =>
      rw [outcome, origin]
      cases supplier.outcome with
      | ok result => exact traces_tryCall (function result none)
      | error exception => exact traces_tryCall (function default (some exception))
  | thenCompose supplier function returned ih ihReturned =>
      rw [outcome, origin]
      cases supplied : supplier.outcome with
      | ok result => exact (ihReturned result).composed (function result)
      | error exception =>
          rw [supplied] at ih
          exact ih.relay
  | thenComposeBoth supplier function returned ih ihReturned =>
      rw [outcome, origin]
      cases supplier.outcome with
      | ok result => exact (ihReturned result none).composed (function result none)
      | error exception =>
          exact (ihReturned default (some exception)).composed
            (function default (some exception))
  | thenAccept supplier function ih =>
      rw [outcome, origin]
      cases supplied : supplier.outcome with
      | ok result => exact traces_then_ok (function result) result
      | error exception =>
          rw [supplied] at ih
          exact ih.relay
  | thenAcceptBoth supplier function ih =>
      rw [outcome, origin]
      cases supplied : supplier.outcome with
      | ok result => exact traces_then_ok (function result none) result
      | error exception =>
          rw [supplied] at ih
          exact ih.keep (function default (some exception))
  | thenRun supplier action ih =>
      rw [outcome, origin]
      cases supplied : supplier.outcome with
      | ok result => exact traces_then_ok action result
      | error exception =>
          rw [supplied] at ih
          exact ih.relay
  | catchException supplier function ih =>
      rw [outcome, origin]
      cases supplier.outcome with
      | ok result => exact trivial
      | error exception => exact traces_tryCall (function exception)
  | catchAndKeep supplier function ih =>
      rw [outcome, origin]
      cases supplied : supplier.outcome with
      | ok result => exact trivial
      | error exception =>
          rw [supplied] at ih
          exact ih.keep (function exception)

/-! ## When the exception survives -/

/-- The exception the program threw or set, if it is one of the program's own. -/
def Origin.exception : Origin → Option Exception
  | .thrown (.exception exception) => some exception
  | .thrown _ => none
  | .set exception => some exception
  | .setReference exception => some exception

/-- The exception was set through a pointer or is what a clone of it is, and it is no
`CompletionException` around another one. -/
def Origin.Keeps : Origin → Prop
  | .thrown (.exception exception) => exception.ClonesItself ∧ exception.NotNested
  | .thrown _ => False
  | .set exception => exception.NotNested
  | .setReference exception => exception.ClonesItself ∧ exception.NotNested

/-- A promise fails with the exception itself or one `CompletionException` around it,
and `get` throws an `ExecutionException` that it is the cause of. -/
def FailsWith (outcome : Outcome V) (exception : Exception) : Prop :=
  ∃ held, outcome = .error held ∧
    (held = exception ∨ (held.isCompletion = true ∧ held.getCause = some exception ∧
      exception.isCompletion = false)) ∧
    outcome.get = .error (.causedBy .executionException exception.getMessage exception)

omit [Inhabited V] in
/-- `get` unwraps by itself what the promise holds. -/
theorem failsWith_iff {held exception : Exception} (notCancelled : held.isCancellation = false) :
    FailsWith (.error held : Outcome V) exception ↔
      (held = exception ∨ (held.isCompletion = true ∧ held.getCause = some exception ∧
        exception.isCompletion = false)) ∧ held.unwrapped = exception := by
  have got : Outcome.get (.error held : Outcome V) = .error
      (.causedBy .executionException held.unwrapped.getMessage held.unwrapped) := by
    rw [Outcome.get, if_neg (by simp [notCancelled])]
  constructor
  · rintro ⟨held', isHeld, holds, got'⟩
    cases isHeld
    rw [got, Except.error.injEq, Exception.causedBy.injEq] at got'
    exact ⟨holds, got'.2.2⟩
  · rintro ⟨holds, unwraps⟩
    refine ⟨held, rfl, holds, ?_⟩
    rw [got, unwraps]

theorem toCompletionException_of_plain {exception : Exception}
    (plain : exception.isCompletion = false) :
    toCompletionException exception =
      .causedBy .completionException exception.getMessage exception :=
  if_neg (by simp [plain])

theorem isCancellation_of_holds {held exception : Exception}
    (holds : held = exception ∨ held = toCompletionException exception)
    (notCancelled : exception.isCancellation = false) : held.isCancellation = false := by
  rcases holds with same | wrapped
  · rw [same]
    exact notCancelled
  · rw [wrapped, toCompletionException]
    split
    · exact notCancelled
    · rfl

omit [Inhabited V] in
/-- A promise that holds an exception or that wrapped once fails with what the
exception stands for, unless that is nested. -/
theorem failsWith_iff_notNested {held exception : Exception}
    (holds : held = exception ∨ held = toCompletionException exception)
    (notCancelled : exception.isCancellation = false) :
    FailsWith (.error held : Outcome V) exception.unwrapped ↔ exception.NotNested := by
  rw [failsWith_iff (isCancellation_of_holds holds notCancelled)]
  cases completion : exception.isCompletion with
  | false =>
      rw [Exception.unwrapped_of_not_isCompletion completion, Exception.NotNested, completion]
      refine ⟨fun _ isTrue => absurd isTrue (by simp), fun _ => ?_⟩
      rcases holds with same | wrapped
      · exact ⟨.inl same, by rw [same, Exception.unwrapped_of_not_isCompletion completion]⟩
      · rw [toCompletionException_of_plain completion] at wrapped
        subst wrapped
        exact ⟨.inr ⟨rfl, rfl, rfl⟩, Exception.unwrapped_of_getCause rfl rfl⟩
  | true =>
      have same : held = exception := by
        rcases holds with same | wrapped
        · exact same
        · rw [wrapped, toCompletionException_of_isCompletion completion]
      subst same
      cases isCause : held.getCause with
      | none =>
          rw [Exception.unwrapped_of_no_cause isCause]
          refine ⟨fun _ _ cause isCause' => ?_, fun _ => ⟨.inl rfl, rfl⟩⟩
          rw [isCause] at isCause'
          cases isCause'
      | some cause =>
          rw [Exception.unwrapped_of_getCause completion isCause]
          constructor
          · rintro ⟨isSelf | ⟨_, _, plain⟩, _⟩ _ cause' isCause'
            · rw [isSelf] at isCause
              exact absurd isCause (Exception.getCause_ne cause)
            · rw [isCause] at isCause'
              cases isCause'
              exact plain
          · intro notNested
            exact ⟨.inr ⟨completion, rfl, notNested completion cause isCause⟩, rfl⟩

omit [Inhabited V] in
/-- A promise that holds a sliced exception or that wrapped once does not fail with
the exception. -/
theorem not_failsWith_of_sliced {held exception : Exception}
    (holds : held = exception.clone ∨ held = toCompletionException exception.clone)
    (sliced : ¬exception.ClonesItself) :
    ¬FailsWith (.error held : Outcome V) exception.unwrapped := by
  have base := Exception.type_clone_of_not sliced
  have plain : exception.clone.isCompletion = false := by
    rw [Exception.isCompletion, base]
    rfl
  have notCancelled : exception.clone.isCancellation = false := by
    rw [Exception.isCancellation, base]
    rfl
  -- either way the promise stands for the clone, which is neither the exception nor its cause
  have standsFor : held.unwrapped = exception.clone := by
    rcases holds with same | wrapped
    · rw [same, Exception.unwrapped_of_not_isCompletion plain]
    · rw [wrapped, toCompletionException_of_plain plain]
      exact Exception.unwrapped_of_getCause rfl rfl
  rw [failsWith_iff (isCancellation_of_holds holds notCancelled), standsFor]
  rintro ⟨_, same⟩
  cases isCause : exception.getCause with
  | none =>
      rw [Exception.unwrapped_of_no_cause isCause] at same
      rw [same] at base
      exact sliced (.inl base)
  | some cause =>
      cases completion : exception.isCompletion with
      | false =>
          rw [Exception.unwrapped_of_not_isCompletion completion] at same
          rw [same] at base
          exact sliced (.inl base)
      | true =>
          rw [Exception.unwrapped_of_getCause completion isCause] at same
          rw [← Exception.getCause_clone, same] at isCause
          exact Exception.getCause_ne cause isCause

/-- A failed promise of a chain keeps the exception its failure started with exactly
when that was set through a pointer or clones itself, and is not nested. -/
theorem failsWith_iff_keeps (chain : Chain V) {origin : Origin} {exception : Exception}
    (because : chain.origin = some origin) (own : origin.exception = some exception)
    (notCancelled : exception.isCancellation = false) :
    FailsWith chain.outcome exception.unwrapped ↔ origin.Keeps := by
  have holds := chain.traces
  rw [because] at holds
  cases failed : chain.outcome with
  | ok result =>
      rw [failed] at holds
      exact holds.elim
  | error held =>
      rw [failed] at holds
      have cloned (atClone : held = exception.clone ∨
          held = toCompletionException exception.clone) :
          FailsWith (.error held : Outcome V) exception.unwrapped ↔
            exception.ClonesItself ∧ exception.NotNested := by
        by_cases clones : exception.ClonesItself
        · rw [Exception.clone_of_clonesItself clones] at atClone
          rw [failsWith_iff_notNested atClone notCancelled]
          exact ⟨fun notNested => ⟨clones, notNested⟩, fun both => both.2⟩
        · exact ⟨fun fails => absurd fails (not_failsWith_of_sliced atClone clones),
            fun both => absurd both.1 clones⟩
      cases origin with
      | thrown failure =>
          cases failure with
          | exception thrown =>
              cases own
              exact cloned (.inr holds)
          | stdException what => cases own
          | unknown => cases own
      | set pointed =>
          cases own
          exact failsWith_iff_notNested holds notCancelled
      | setReference referred =>
          cases own
          exact cloned holds

/-! The source of a chain fails with an exception of another class. -/

/-- An exception class of the program. -/
def ioException : ExceptionClass where
  name := "IOException"

/-- `thenApply` throws, two more promises depend on it. -/
def throwsInApply (thrown : Exception) : Chain Nat :=
  .thenRun (.thenAccept (.thenApply (.complete 1) fun _ => .error (.exception thrown))
    fun _ => .ok ()) (.ok ())

/-- An exception set through a pointer reaches the end of the chain. -/
theorem failsWith_set :
    FailsWith (.thenRun (.completeWith (.root ioException "closed")) (.ok ()) : Chain Nat).outcome
      (.root ioException "closed") := by
  apply (failsWith_iff_keeps (.thenRun (.completeWith (.root ioException "closed")) (.ok ()))
    rfl rfl rfl).mpr
  intro completion
  cases completion

/-- A thrown exception of a derived class is sliced: `get` throws an
`ExecutionException` whose cause is a plain `Exception`. -/
theorem throwsInApply_sliced :
    ¬FailsWith (throwsInApply (.root ioException "closed")).outcome (.root ioException "closed") ∧
      (throwsInApply (.root ioException "closed")).outcome.get =
        .error (.causedBy .executionException "closed" (.root .exception "closed")) := by
  have got : (throwsInApply (.root ioException "closed")).outcome.get =
      .error (.causedBy .executionException "closed" (.root .exception "closed")) := rfl
  refine ⟨?_, got⟩
  rintro ⟨_, _, _, got'⟩
  rw [got] at got'
  exact absurd (Except.error.inj got') (by decide)

end Chain

end Mindroid
