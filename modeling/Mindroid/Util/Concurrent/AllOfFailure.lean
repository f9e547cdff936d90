import Mindroid.Util.Concurrent.AllOf

/-!
# `Promise::allOf` that completes on the first exception

Next to the tree there are relays of the exceptions of the members.  Whichever comes first is
passed on by a function that completes the promise that `allOf` returns.
-/

set_option autoImplicit false

namespace Mindroid

open Foundation

namespace PromiseMachine

variable {P A V : Type} [Inhabited V]

/-! ## What is created -/

/-- A call that completes the promise. -/
def makes (promise : P) : Call P A V → Prop
  | .complete other _ => other = promise
  | .cancel other => other = promise
  | _ => False

/-- How the function given to `then` completes the promise. -/
def passedOn : Outcome V → Outcome V
  | .ok _ => .ok default
  | .error exception => .error exception

theorem exception_passedOn (outcome : Outcome V) :
    Outcome.exception (passedOn outcome) = Outcome.exception outcome := by
  cases outcome with
  | ok result => rfl
  | error exception => rfl

/-- What `allOf` creates if it completes on an exception. -/
structure AllOfFailure (classOf : A → ActionClass P A V) (first : P) (others : List P)
    (action : Nat × Nat → A) (consumer : Nat × Nat → P) (errors relays : List A)
    (exceptions either : P) (passes : A) (result : P) : Prop where
  values : AllOf classOf first others action consumer
  created : errors.map classOf = (first :: others).map fun member => .errorRelay member exceptions
  alone : ∀ other, (classOf other).consumer = exceptions → other ∈ errors
  exceptionsCalls : ∀ other outcome, ∀ call ∈ (classOf other).calls outcome, ¬makes exceptions call
  anyOf : AnyOf classOf [consumer (0, others.length), exceptions] either relays
  function : ∃ discarded produces, classOf passes =
    .function true either discarded (fun outcome => [.complete result (passedOn outcome)]) produces
  resultAlone : ∀ other, (classOf other).consumer ≠ result
  resultCalls : ∀ other, other ≠ passes → ∀ outcome, ∀ call ∈ (classOf other).calls outcome,
    ¬makes result call

/-- The promises that nobody else completes. -/
def Created (others : List P) (consumer : Nat × Nat → P) (exceptions either result promise : P) :
    Prop :=
  (∃ node ∈ AndTree.nodes others, promise = consumer node) ∨ promise = exceptions ∨
    promise = either ∨ promise = result

omit [Inhabited V] in
theorem callAllowed_of_not_makes {promises : Promises P A V} {promise : P} {call : Call P A V}
    {allowed : Promises P A V → P → Outcome V → Prop}
    (others : ∀ other outcome, other ≠ promise → allowed promises other outcome)
    (other : ¬makes promise call) : CallAllowed allowed promises call := by
  cases call with
  | complete called outcome => exact others called outcome other
  | cancel called => exact others called _ other
  | register | andTree | anyOf => exact trivial

omit [Inhabited V] in
theorem callsAllowed_imp {allowed allowed' : Promises P A V → P → Outcome V → Prop}
    {state : State P A V} (calls : Machine.Facts (CallsAllowed allowed) state)
    (implies : ∀ promises promise outcome, allowed promises promise outcome →
      allowed' promises promise outcome) : Machine.Facts (CallsAllowed allowed') state := by
  intro thread instr member call isCall
  have before := calls thread instr member call isCall
  cases call with
  | complete promise outcome => exact implies _ _ _ before
  | cancel promise => exact implies _ _ _ before
  | register | andTree | anyOf => exact trivial

/-! ## The function that passes on -/

section Passing

variable [DecidableEq P] [DecidableEq A] {classOf : A → ActionClass P A V}
variable {promises after : Promises P A V} {instr : Instr P A V} {rest pushed : List (Instr P A V)}

/-- Instructions that lead to the call. -/
def passing (passes : A) (result : P) : Instr P A V → Prop
  | .run other .onComplete => other = passes
  | .passResult other .onComplete => other = passes
  | .passException other _ .onComplete => other = passes
  | .apply other _ => other = passes
  | .call call => makes result call
  | _ => False

/-- A function that was claimed has to complete the promise. -/
def OwesCall (passes : A) (result : P) (promises : Promises P A V) : Prop :=
  promises.claimed passes = true ∧ ¬promises.Done result

/-- Each instruction of the function leads to the next one, and the last one to the call. -/
theorem passing_execute {passes : A} {either discarded result : P}
    {produces : Outcome V → Produced A V}
    (type : classOf passes = .function true either discarded
      (fun outcome => [.complete result (passedOn outcome)]) produces)
    (isPassing : passing passes result instr)
    (executes : execute classOf promises rest instr = some (after, pushed)) :
    after.Done result ∨ ∃ next ∈ pushed, passing passes result next := by
  cases instr with
  | run other ending =>
      cases ending with
      | returns actions => exact isPassing.elim
      | onComplete =>
          obtain rfl := isPassing
          right
          simp only [execute] at executes
          split at executes
          · cases executes
            exact ⟨_, List.mem_cons_self, rfl⟩
          · simp only [type] at executes
            cases executes
            exact ⟨_, List.mem_cons_self, rfl⟩
  | passResult other ending =>
      cases ending with
      | returns actions => exact isPassing.elim
      | onComplete =>
          obtain rfl := isPassing
          simp only [execute, type] at executes
          cases executes
          exact .inr ⟨_, List.mem_cons_self, rfl⟩
  | passException other supplier ending =>
      cases ending with
      | returns actions => exact isPassing.elim
      | onComplete =>
          obtain rfl := isPassing
          simp only [execute, type] at executes
          split at executes
          · cases executes
          · cases executes
            exact .inr ⟨_, List.mem_cons_self, rfl⟩
  | apply other outcome =>
      obtain rfl := isPassing
      simp only [execute, type] at executes
      split at executes
      · cases executes
        exact .inr ⟨_, List.mem_cons_self, rfl⟩
      · cases executes
        exact .inr ⟨_, List.mem_cons_self, rfl⟩
  | call call =>
      cases call with
      | complete other outcome =>
          obtain rfl := isPassing
          left
          simp only [execute, executeCall] at executes
          split at executes
          case isTrue done =>
            cases executes
            exact done
          case isFalse pending =>
            cases executes
            exact Promises.done_settle_self _ _ _ _
      | cancel other =>
          obtain rfl := isPassing
          cases executes
          exact .inr ⟨_, List.mem_cons_self, rfl⟩
      | register | andTree | anyOf => exact isPassing.elim
  | _ => exact isPassing.elim

theorem execute_owesCall {passes : A} {either discarded result : P}
    {produces : Outcome V → Produced A V} (consistent : Consistent classOf promises)
    (fact : Fact classOf promises instr)
    (type : classOf passes = .function true either discarded
      (fun outcome => [.complete result (passedOn outcome)]) produces)
    (executes : execute classOf promises rest instr = some (after, pushed))
    (owes : OwesCall passes result after) :
    (OwesCall passes result promises ∧ ¬passing passes result instr) ∨
      ∃ next ∈ pushed, passing passes result next := by
  have grows := (executes_of consistent.listed fact executes).change.grows
  rcases claimed_execute executes owes.1 with before | ⟨rfl, unclaimed⟩
  · by_cases isPassing : passing passes result instr
    · exact .inr ((passing_execute type isPassing executes).resolve_left owes.2)
    · exact .inl ⟨⟨before, fun done => owes.2 (grows.kept result done).1⟩, isPassing⟩
  · simp only [execute, unclaimed, type] at executes
    cases executes
    exact .inr ⟨_, List.mem_cons_self, rfl⟩

/-- The function is tried and run, or the promise is completed by a call. -/
def passesOrCalls (passes : A) (result : P) (instr : Instr P A V) : Prop :=
  engages passes instr ∨ ∃ call, instr = .call call ∧ makes result call

theorem execute_passesOrCalls {passes : A} {result : P} (consistent : Consistent classOf promises)
    (fact : Fact classOf promises instr)
    (others : ∀ other, other ≠ passes → ∀ outcome, ∀ call ∈ (classOf other).calls outcome,
      ¬makes result call)
    (executes : execute classOf promises rest instr = some (after, pushed))
    (covered : Machine.Covered (passesOrCalls passes result) (attends classOf passes)
      (instr :: rest)) :
    Machine.Covered (passesOrCalls passes result) (attends classOf passes) (pushed ++ rest) := by
  by_cases isKind : passesOrCalls passes result instr
  · exact .under (covered.1 isKind) covered.2
  have noCall : ∀ call, .call call ∈ pushed → ¬makes result call := by
    intro call member isMade
    rcases pushed_call executes member with ⟨promise, rfl, rfl⟩ | ⟨other, outcome, rfl, made⟩
    · exact isKind (.inr ⟨_, rfl, isMade⟩)
    · by_cases same : other = passes
      · exact isKind (.inl (.inr same))
      · rcases made with isCall | ⟨relay, rfl⟩
        · exact others other same outcome call isCall isMade
        · exact isMade
  have quiet {next : Instr P A V} (member : next ∈ pushed) (unengaged : ¬engages passes next) :
      ¬passesOrCalls passes result next := by
    rintro (engaged | ⟨call, rfl, isMade⟩)
    · exact unengaged engaged
    · exact noCall call member isMade
  rcases execute_engages consistent fact executes passes with engaged | idle | begins
  · exact absurd (.inl engaged) isKind
  · exact .append (fun next member => quiet member (idle next member)) covered.2
  · rcases begins with ⟨below, rfl, idle, next, member, attending⟩
    refine ⟨fun _ => ⟨next, List.mem_append_left _ member, attending⟩, .append ?_ covered.2⟩
    exact fun other isBelow => quiet (List.mem_cons_of_mem _ isBelow) (idle other isBelow)

end Passing

/-! ## Runs -/

namespace AllOfFailure

variable {classOf : A → ActionClass P A V} {first : P} {others : List P}
  {action : Nat × Nat → A} {consumer : Nat × Nat → P} {errors relays : List A}
  {exceptions either : P} {passes : A} {result : P}

/-- The promise that `allOf` returns is completed as the function passes on. -/
def Passed (either result : P) (promises : Promises P A V) (promise : P) (outcome : Outcome V) :
    Prop :=
  promise = result → promises.Done either ∧
    outcome = passedOn (promises.promise either).outcome

theorem discipline (allOf : AllOfFailure classOf first others action consumer errors relays
      exceptions either passes result) : Discipline classOf (Passed either result) where
  stable grows promise outcome passed isResult := by
    rcases passed isResult with ⟨done, same⟩
    rw [same, grows.outcome done]
    exact ⟨(grows.kept either done).1, rfl⟩
  calls promises other allDone call isCall := by
    by_cases same : other = passes
    · subst same
      rcases allOf.function with ⟨discarded, produces, type⟩
      have done := allDone _ (classOf other).supplier_mem
      rw [type] at isCall done
      obtain rfl := List.mem_singleton.mp isCall
      exact fun _ => ⟨done, rfl⟩
    · refine callAllowed_of_not_makes ?_ (allOf.resultCalls other same _ call isCall)
      exact fun called outcome different isResult => absurd isResult different

theorem exceptionsDiscipline
    (allOf : AllOfFailure classOf first others action consumer errors relays exceptions either
      passes result) : Discipline classOf fun _ promise _ => promise ≠ exceptions where
  stable _ _ _ different := different
  calls _ other _ call isCall := callAllowed_of_not_makes (fun _ _ different => different)
    (allOf.exceptionsCalls other _ call isCall)

variable [DecidableEq P] [DecidableEq A] {start state state' : State P A V}

/-- A claimed function completes the promise, which happens only inside a call that
completes what `anyOf` returns or registers the function. -/
structure Passes (classOf : A → ActionClass P A V) (either : P) (passes : A) (result : P)
    (state : State P A V) : Prop extends Disciplined classOf (Passed either result) state where
  covered : ∀ thread,
    Machine.Covered (passesOrCalls passes result) (attends classOf passes) (state.stack thread)
  owed : OwesCall passes result state.shared → state.Pending (passing passes result)

omit [DecidableEq P] [DecidableEq A] in
theorem Passes.initial (initial : Initial state)
    (calls : Machine.Facts (CallsAllowed (Passed either result)) state) :
    Passes classOf either passes result state where
  toDisciplined := .initial initial calls
  covered thread := by
    rw [← List.append_nil (state.stack thread)]
    refine .append (fun instr member => ?_) trivial
    rcases initial.calls thread instr member with ⟨call, rfl⟩
    have allowed := calls thread _ member call rfl
    rw [initial.shared] at allowed
    rintro (engaged | ⟨_, ⟨⟩, isMade⟩)
    · simp [engages, tries, delivering] at engaged
    · cases call with
      | complete promise outcome => cases (allowed isMade).1
      | cancel promise => cases (allowed isMade).1
      | register | andTree | anyOf => exact isMade
  owed owes := by
    have claimed := owes.1
    rw [initial.shared] at claimed
    cases claimed

theorem Passes.step (allOf : AllOfFailure classOf first others action consumer errors relays
      exceptions either passes result) (holds : Passes classOf either passes result state)
    (step : (machine classOf).Step state state') : Passes classOf either passes result state' where
  toDisciplined := holds.toDisciplined.step allOf.discipline step
  covered := by
    apply step.covered holds.covered
    · intro thread rest instr shared pushed top executes onTop
      have fact := holds.facts thread instr (by rw [top]; exact List.mem_cons_self)
      exact execute_passesOrCalls holds.consistent fact allOf.resultCalls executes onTop
    · rintro shared pushed ⟨other, member, rfl, rfl⟩
      refine ⟨fun isKind => ?_, trivial⟩
      rcases allOf.function with ⟨discarded, produces, type⟩
      rcases isKind with engaged | ⟨_, ⟨⟩, _⟩
      have same : other = passes := by simpa [engages, tries, delivering] using engaged
      have isDeferred := holds.consistent.deferred other member
      rw [same, type] at isDeferred
      cases isDeferred
  owed := by
    rcases allOf.function with ⟨discarded, produces, type⟩
    apply step.pending holds.owed
    · intro thread rest instr shared pushed top executes
      have fact := holds.facts thread instr (by rw [top]; exact List.mem_cons_self)
      exact execute_owesCall holds.consistent fact type executes
    · rintro shared pushed ⟨other, member, rfl, rfl⟩ owes
      exact owes

theorem reachable_passes (allOf : AllOfFailure classOf first others action consumer errors relays
      exceptions either passes result) (initial : Initial start)
    (calls : Machine.Facts (CallsAllowed (Passed either result)) start)
    (reached : Reachable (· = start) (machine classOf).Step state) :
    Passes classOf either passes result state := by
  apply Reachable.invariant _ _ reached
  · rintro _ rfl
    exact .initial initial calls
  · intro before after _ holds step
    exact holds.step allOf step

/-! ### Where the exception comes from -/

variable (allOf : AllOfFailure classOf first others action consumer errors relays exceptions
  either passes result)

include allOf

omit [DecidableEq P] [DecidableEq A] in
theorem passed (holds : Passes classOf either passes result state)
    (done : state.shared.Done result) : state.shared.Done either ∧
      (state.shared.promise result).mException = (state.shared.promise either).mException := by
  have completed := (holds.consistent.completedBy result).mpr done
  cases completer : state.shared.completedBy result with
  | none => exact absurd completer completed
  | some by' =>
      cases by' with
      | call number =>
          rcases holds.completed result number completer rfl with ⟨eitherDone, outcome⟩
          refine ⟨eitherDone, ?_⟩
          rw [← Promise.exception_outcome, outcome, exception_passedOn, Promise.exception_outcome]
      | action =>
          rcases holds.consistent.produced result completer with ⟨other, isConsumer, _⟩
          exact absurd isConsumer (allOf.resultAlone other)

omit [DecidableEq P] [DecidableEq A] in
theorem failed_of_exceptions
    (disciplined : Disciplined classOf (fun _ promise _ => promise ≠ exceptions) state)
    (done : state.shared.Done exceptions) :
    ∃ member ∈ first :: others, ∃ exception,
      (state.shared.promise member).mException = some exception ∧
        (state.shared.promise exceptions).mException = some (toCompletionException exception) := by
  rcases disciplined.produced done (not_not_intro rfl) with ⟨other, isConsumer, _, gives⟩
  have created : classOf other ∈
      (first :: others).map fun member => ActionClass.errorRelay member exceptions := by
    rw [← allOf.created]
    exact List.mem_map_of_mem (allOf.alone other isConsumer)
  rcases List.mem_map.mp created with ⟨member, isMember, type⟩
  rw [← type] at gives
  rcases gives with ⟨exception, failed, given⟩
  refine ⟨member, isMember, exception, ?_, ?_⟩
  · rw [← Promise.exception_outcome]
    exact congrArg Outcome.exception failed
  · rw [← Promise.exception_outcome]
    exact congrArg Outcome.exception given

omit [DecidableEq P] [DecidableEq A] in
/-- What `anyOf` returns has the exception of a promise that has failed, or all promises have
succeeded. -/
theorem either_cases
    (values : Disciplined classOf
      (fun _ promise _ => ∀ node ∈ AndTree.nodes others, promise ≠ consumer node) state)
    (errors : Disciplined classOf (fun _ promise _ => promise ≠ exceptions) state)
    (any : Disciplined classOf (fun _ promise _ => promise ≠ either) state)
    (done : state.shared.Done either) :
    (∃ member ∈ first :: others, ∃ exception,
        (state.shared.promise member).mException = some exception ∧
          (state.shared.promise either).mException = some (toCompletionException exception)) ∨
      (∀ member ∈ first :: others,
        state.shared.Done member ∧ (state.shared.promise member).mException = none) ∧
        (state.shared.promise either).mException = none := by
  rcases allOf.anyOf.relayed any done with ⟨source, isSource, sourceDone, outcome⟩
  have relayed : (state.shared.promise either).mException =
      (state.shared.promise source).mException.map toCompletionException := by
    rw [← Promise.exception_outcome, outcome, RelayAction.exception_run,
      Promise.exception_outcome]
  rcases List.mem_cons.mp isSource with rfl | later
  · rcases allOf.values.gathered values sourceDone with ⟨allDone, exception⟩
    rw [relayed, exception, map_toCompletionException_twice]
    cases first' : state.shared.firstException (first :: others) with
    | some failure =>
        rcases List.exists_of_findSome?_eq_some first' with ⟨member, isMember, failed⟩
        exact .inl ⟨member, isMember, failure, failed, rfl⟩
    | none =>
        refine .inr ⟨fun member isMember => ⟨allDone member isMember, ?_⟩, rfl⟩
        exact List.findSome?_eq_none_iff.mp first' member isMember
  · obtain rfl := List.mem_singleton.mp later
    rcases allOf.failed_of_exceptions errors sourceDone with
      ⟨member, isMember, failure, failed, exception⟩
    refine .inl ⟨member, isMember, failure, failed, ?_⟩
    rw [relayed, exception]
    exact map_toCompletionException_twice (some failure)

/-! ### What a quiet state has delivered -/

theorem exceptions_delivered
    (disciplined : Disciplined classOf (fun _ promise _ => promise ≠ exceptions) state)
    (initial : Initial start) (reached : Reachable (· = start) (machine classOf).Step state)
    (quiet : Quiet state) (returned : Returned state errors) {member : P}
    (isMember : member ∈ first :: others) {exception : Exception}
    (failed : (state.shared.promise member).mException = some exception) :
    state.shared.Done exceptions := by
  have created : ActionClass.errorRelay member exceptions ∈ errors.map classOf := by
    rw [allOf.created]
    exact List.mem_map_of_mem isMember
  rcases List.mem_map.mp created with ⟨other, isError, type⟩
  have memberDone : state.shared.Done member := by
    by_contra pending
    rw [disciplined.consistent.noException member pending] at failed
    cases failed
  have allDone : state.shared.AllDone classOf other := by
    apply allDone_of_both
    · rwa [type]
    · rwa [type]
  have delivers : (classOf other).delivers
      (state.shared.promise (classOf other).supplier).mException = true := by
    rw [type]
    exact Option.isSome_iff_exists.mpr ⟨exception, failed⟩
  have consumerDone := disciplined.quiet_delivers initial reached (by rw [type]; rfl)
    (returned other isError) allDone (fun supplier _ => quiet supplier) delivers
  rwa [type] at consumerDone

omit [DecidableEq P] [DecidableEq A] in
theorem passed_delivered (holds : Passes classOf either passes result state) (quiet : Quiet state)
    (registered : state.shared.registered passes = true ∧ ¬state.Pending (registers passes))
    (done : state.shared.Done either) : state.shared.Done result := by
  rcases allOf.function with ⟨discarded, produces, type⟩
  have idle : ¬state.Pending (passesOrCalls passes result) := by
    intro pending
    rcases Machine.Covered.pending holds.covered pending with ⟨thread, instr, member, attending⟩
    rcases attending with ⟨supplier, _, completing⟩ | registering
    · exact quiet supplier ⟨thread, instr, member, completing⟩
    · exact registered.2 ⟨thread, instr, member, registering⟩
  have claimed : state.shared.claimed passes = true := by
    apply holds.toSound.claimed registered.1
    · intro supplier isSupplier
      have same : supplier = either := by
        rw [type] at isSupplier
        exact List.mem_singleton.mp isSupplier
      refine ⟨by rwa [same], ?_, quiet supplier⟩
      cases removed : state.shared.removed passes supplier with
      | false => rfl
      | true =>
          have isRelay := (holds.consistent.removed passes supplier removed).1
          rw [type] at isRelay
          cases isRelay
    · exact fun tried => idle (tried.mono fun _ trying => .inl (.inl trying))
  by_contra notDone
  apply idle
  apply (holds.owed ⟨claimed, notDone⟩).mono
  intro instr isPassing
  cases instr with
  | run other ending | passResult other ending | passException other _ ending =>
      cases ending with
      | onComplete => exact .inl (.inr isPassing)
      | returns actions => exact isPassing.elim
  | apply other outcome => exact .inl (.inr isPassing)
  | call call => exact .inr ⟨call, rfl, isPassing⟩
  | _ => exact isPassing.elim

/-- In a quiet state the promise that `allOf` returns has failed if and only if a promise has,
and has succeeded if and only if all have. -/
theorem settled (initial : Initial start)
    (reached : Reachable (· = start) (machine classOf).Step state)
    (calls : Machine.Facts
      (CallsAllowed fun _ promise _ => ¬Created others consumer exceptions either result promise)
      start)
    (quiet : Quiet state)
    (returned : Returned state ((AndTree.nodes others).map action ++ errors ++ relays))
    (registered : state.shared.registered passes = true ∧ ¬state.Pending (registers passes)) :
    (state.shared.Failed result ↔ ∃ member ∈ first :: others, state.shared.Failed member) ∧
      (∀ exception, (state.shared.promise result).mException = some exception →
        ∃ member ∈ first :: others, ∃ cause,
          (state.shared.promise member).mException = some cause ∧
            exception = toCompletionException cause) ∧
      (state.shared.Succeeded result ↔
        ∀ member ∈ first :: others, state.shared.Succeeded member) := by
  have values := Disciplined.reachable allOf.values.discipline initial
    (callsAllowed_imp calls fun _ _ _ other node isNode same => other (.inl ⟨node, isNode, same⟩))
    reached
  have exceptional := Disciplined.reachable allOf.exceptionsDiscipline initial
    (callsAllowed_imp calls fun _ _ _ other same => other (.inr (.inl same))) reached
  have any := Disciplined.reachable allOf.anyOf.discipline initial
    (callsAllowed_imp calls fun _ _ _ other same => other (.inr (.inr (.inl same)))) reached
  have holds := allOf.reachable_passes initial
    (callsAllowed_imp calls fun _ _ _ other same => absurd (.inr (.inr (.inr same))) other) reached
  have cases' (done : state.shared.Done result) := by
    rcases allOf.passed holds done with ⟨eitherDone, same⟩
    have sources := allOf.either_cases values exceptional any eitherDone
    rwa [← same] at sources
  have doneOf {promise : P} (failed : state.shared.Failed promise) :
      state.shared.Done promise := by
    by_contra pending
    exact failed (holds.consistent.noException promise pending)
  have passes' {source : P} (isSource : source ∈ [consumer (0, others.length), exceptions])
      (done : state.shared.Done source) : state.shared.Done result := by
    apply allOf.passed_delivered holds quiet registered
    exact allOf.anyOf.delivered initial any reached
      (fun relay isRelay => returned relay (List.mem_append_right _ isRelay)) isSource done
      (quiet source)
  refine ⟨⟨?_, ?_⟩, ?_, ?_, ?_⟩
  · intro failed
    rcases cases' (doneOf failed) with ⟨member, isMember, cause, isCause, _⟩ | ⟨_, none⟩
    · refine ⟨member, isMember, ?_⟩
      rw [Promises.Failed, isCause]
      exact Option.some_ne_none _
    · exact absurd none failed
  · rintro ⟨member, isMember, failed⟩
    rcases Option.ne_none_iff_exists'.mp failed with ⟨cause, isCause⟩
    have exceptionsDone := allOf.exceptions_delivered exceptional initial reached quiet
      (fun error isError => returned error
        (List.mem_append_left _ (List.mem_append_right _ isError))) isMember isCause
    have resultDone := passes' (List.mem_cons_of_mem _ List.mem_cons_self) exceptionsDone
    rcases cases' resultDone with ⟨_, _, _, _, exception⟩ | ⟨succeeded, _⟩
    · rw [Promises.Failed, exception]
      exact Option.some_ne_none _
    · exact absurd (succeeded member isMember).2 failed
  · intro exception isException
    have failed : state.shared.Failed result := by
      rw [Promises.Failed, isException]
      exact Option.some_ne_none _
    rcases cases' (doneOf failed) with ⟨member, isMember, cause, isCause, same⟩ | ⟨_, none⟩
    · exact ⟨member, isMember, cause, isCause, Option.some.inj (isException.symm.trans same)⟩
    · exact absurd none failed
  · rintro ⟨done, succeeded⟩
    rcases cases' done with ⟨_, _, _, _, exception⟩ | ⟨allSucceeded, _⟩
    · rw [succeeded] at exception
      cases exception
    · exact allSucceeded
  · intro allSucceeded
    have valuesDone := allOf.values.delivered values initial reached quiet
      (fun node isNode => returned node (List.mem_append_left _ (List.mem_append_left _ isNode)))
      fun member isMember => (allSucceeded member isMember).1
    have done := passes' List.mem_cons_self valuesDone
    rcases cases' done with ⟨member, isMember, cause, isCause, _⟩ | ⟨_, none⟩
    · rw [(allSucceeded member isMember).2] at isCause
      cases isCause
    · exact ⟨done, none⟩

end AllOfFailure

/-- Whenever no thread is inside a call that completes a promise, the promises that both
variants of `allOf` return are as the members tell. -/
theorem reachable_allOf [DecidableEq P] [DecidableEq A] {classOf : A → ActionClass P A V}
    (first : P) (others : List P) {start state : State P A V} (initial : Initial start)
    (reached : Reachable (· = start) (machine classOf).Step state) (quiet : Quiet state) :
    (∀ action consumer, AllOf classOf first others action consumer →
      Machine.Facts (CallsAllowed fun _ promise _ =>
        ∀ node ∈ AndTree.nodes others, promise ≠ consumer node) start →
      Returned state ((AndTree.nodes others).map action) →
      (state.shared.Done (consumer (0, others.length)) ↔
          ∀ member ∈ first :: others, state.shared.Done member) ∧
        (state.shared.Done (consumer (0, others.length)) →
          (state.shared.Failed (consumer (0, others.length)) ↔
              ∃ member ∈ first :: others, state.shared.Failed member) ∧
            (state.shared.promise (consumer (0, others.length))).mException =
              (state.shared.firstException (first :: others)).map toCompletionException)) ∧
    (∀ action consumer errors relays exceptions either passes result,
      AllOfFailure classOf first others action consumer errors relays exceptions either passes
        result →
      Machine.Facts (CallsAllowed fun _ promise _ =>
        ¬Created others consumer exceptions either result promise) start →
      Returned state ((AndTree.nodes others).map action ++ errors ++ relays) →
      state.shared.registered passes = true ∧ ¬state.Pending (registers passes) →
      (state.shared.Failed result ↔ ∃ member ∈ first :: others, state.shared.Failed member) ∧
        (∀ exception, (state.shared.promise result).mException = some exception →
          ∃ member ∈ first :: others, ∃ cause,
            (state.shared.promise member).mException = some cause ∧
              exception = toCompletionException cause) ∧
        (state.shared.Succeeded result ↔
          ∀ member ∈ first :: others, state.shared.Succeeded member)) := by
  constructor
  · intro action consumer allOf calls returned
    have disciplined := Disciplined.reachable allOf.discipline initial calls reached
    refine ⟨⟨fun done => (allOf.gathered disciplined done).1,
      allOf.delivered disciplined initial reached quiet returned⟩, fun done => ?_⟩
    have exception := (allOf.gathered disciplined done).2
    refine ⟨?_, exception⟩
    rw [Promises.Failed, exception, ← Promises.firstException_ne_none, Ne, Option.map_eq_none_iff]
  · intro action consumer errors relays exceptions either passes result allOf calls returned
      registered
    exact allOf.settled initial reached calls quiet returned registered

/-! One of two members fails before the other one is completed. -/

/-- The members are 0 and 1, the tree returns 2, and 5 is what `allOf` returns. -/
def twoMembers : Fin 6 → ActionClass (Fin 7) (Fin 6) Nat
  | 0 => .biRelay 0 1 2
  | 1 => .errorRelay 0 3
  | 2 => .errorRelay 1 3
  | 3 => .relay 2 4
  | 4 => .relay 3 4
  | 5 => .function true 4 6 (fun outcome => [.complete 5 (passedOn outcome)])
      fun _ => .outcome (.ok 0)

def twoMembersFailure : Exception :=
  .root { name := "IOException" } "Connection closed"

def twoMembersCalls : List (List (Instr (Fin 7) (Fin 6) Nat)) :=
  [[.call (.andTree 0), .call (.register 1), .call (.register 2), .call (.anyOf 4 [3, 4]),
      .call (.register 5)],
    [.call (.complete 1 (.error twoMembersFailure))], [.call (.complete 0 (.ok 7))]]

/-- The only call that a function makes. -/
theorem twoMembers_calls {other : Fin 6} {outcome : Outcome Nat}
    {call : Call (Fin 7) (Fin 6) Nat} (member : call ∈ (twoMembers other).calls outcome) :
    other = 5 ∧ call = .complete 5 (passedOn outcome) := by
  match other with
  | 0 | 1 | 2 | 3 | 4 => cases member
  | 5 => exact ⟨rfl, List.mem_singleton.mp member⟩

theorem twoMembers_allOf : AllOf twoMembers 0 [1] (fun _ => 0) (fun _ => 2) where
  created start stop member := by
    rw [AndTree.nodes_pair] at member
    cases List.mem_singleton.mp member
    rfl
  alone _ _ := by decide
  calls promises other outcome call member := by
    rw [(twoMembers_calls member).2]
    exact fun _ _ => by decide

theorem twoMembers_allOfFailure :
    AllOfFailure twoMembers 0 [1] (fun _ => 0) (fun _ => 2) [1, 2] [3, 4] 3 4 5 5 where
  values := twoMembers_allOf
  created := rfl
  alone := by decide
  exceptionsCalls other outcome call member := by
    rw [(twoMembers_calls member).2]
    exact fun same => absurd (show (5 : Fin 7) = 3 from same) (by decide)
  anyOf :=
    { created := rfl
      alone := by decide
      calls := by
        intro promises other outcome call member
        rw [(twoMembers_calls member).2]
        exact fun same => absurd (show (5 : Fin 7) = 4 from same) (by decide) }
  function := ⟨6, _, rfl⟩
  resultAlone := by decide
  resultCalls other different outcome call member _ := different (twoMembers_calls member).1

/-- `allOf` fails at once in the variant that completes on an exception, and still waits for the
other member in the other one. -/
theorem twoMembers_settled : ∃ final : State (Fin 7) (Fin 6) Nat,
    ¬final.shared.Done 2 ∧ final.shared.Failed 5 ∧ ¬final.shared.Done 0 := by
  have made : ∀ program ∈ twoMembersCalls, ∀ instr ∈ program, ∃ call, instr = .call call ∧
      CallAllowed (fun _ promise _ => ¬Created [1] (fun _ => 2) 3 4 5 promise) fresh call := by
    simp [twoMembersCalls, CallAllowed, Created]
  have initial : Initial (.running fresh twoMembersCalls : State (Fin 7) (Fin 6) Nat) :=
    { shared := rfl
      calls := by
        intro thread instr member
        rcases Config.mem_running member with ⟨program, isProgram, isInstr⟩
        rcases made program isProgram instr isInstr with ⟨call, isCall, _⟩
        exact ⟨call, isCall⟩ }
  have calls : Machine.Facts
      (CallsAllowed fun _ promise _ => ¬Created [1] (fun _ => 2) 3 4 5 promise)
      (.running fresh twoMembersCalls : State (Fin 7) (Fin 6) Nat) := by
    rintro thread instr member call rfl
    rcases Config.mem_running member with ⟨program, isProgram, isInstr⟩
    rcases made program isProgram _ isInstr with ⟨_, ⟨⟩, allowed⟩
    exact allowed
  have scheduled : ∃ final, (machine twoMembers).schedule (execute twoMembers)
      (List.replicate 22 0 ++ List.replicate 24 1 ++ List.replicate 16 0) fresh twoMembersCalls =
        some (final, [[], [], [.call (.complete 0 (.ok 7))]]) ∧
      (final.promise 0).mIsDone = false ∧ (final.promise 1).mException = some twoMembersFailure ∧
      (∀ action ∈ [0, 1, 2, 3, 4], final.combined action = true) ∧ final.registered 5 = true :=
    ⟨_, rfl, rfl, rfl, by decide, rfl⟩
  rcases scheduled with ⟨final, scheduled, pending, failed, combined, registered⟩
  have idle : ∀ kind : Instr (Fin 7) (Fin 6) Nat → Prop, ¬kind (.call (.complete 0 (.ok 7))) →
      ¬(Config.running final [[], [], [.call (.complete 0 (.ok 7))]]).Pending kind := by
    rintro kind other ⟨thread, instr, member, isKind⟩
    rcases Config.mem_running member with ⟨program, isProgram, isInstr⟩
    have same : instr = .call (.complete 0 (.ok 7)) := by
      simp only [List.mem_cons, List.not_mem_nil, or_false] at isProgram
      rcases isProgram with rfl | rfl | rfl
      · cases isInstr
      · cases isInstr
      · exact List.mem_singleton.mp isInstr
    rw [same] at isKind
    exact other isKind
  have reached := Machine.schedule_reachable id scheduled (.initial rfl)
  have both := reachable_allOf 0 [1] initial reached fun promise => idle _ not_false
  have returned {actions : List (Fin 6)} (within : actions ⊆ [0, 1, 2, 3, 4]) :
      Returned (.running final [[], [], [.call (.complete 0 (.ok 7))]]) actions :=
    fun action isAction => ⟨combined action (within isAction), idle _ not_false⟩
  have doneIff := (both.1 _ _ twoMembers_allOf
    (callsAllowed_imp calls fun _ _ _ other node isNode same => other (.inl ⟨node, isNode, same⟩))
    (returned (by rw [AndTree.nodes_pair]; decide))).1
  have failedIff := (both.2 _ _ _ _ _ _ _ _ twoMembers_allOfFailure calls
    (returned (by rw [AndTree.nodes_pair]; decide)) ⟨registered, idle _ not_false⟩).1
  have waits : ¬final.Done 0 := fun done => Bool.false_ne_true (pending.symm.trans done)
  refine ⟨_, fun done => waits (doneIff.mp done 0 List.mem_cons_self), failedIff.mpr ?_, waits⟩
  refine ⟨1, List.mem_cons_of_mem _ List.mem_cons_self, ?_⟩
  rw [Promises.Failed, Config.running, failed]
  exact Option.some_ne_none _

end PromiseMachine

end Mindroid
