import Mindroid.Foundation.Tables
import Mindroid.Runtime.System.Responses

/-!
# Responses that are written

Whatever the threads do, a response is written in one piece.  A response that cannot be written
leaves its connection open, so that the client goes on waiting.
-/

set_option autoImplicit false

namespace Mindroid

open Foundation

namespace Plugin

/-- A step that brings a response further. -/
inductive ResponseAction.Writes {β : Type} (index : Nat) : ResponseAction β → Prop where
  | runs : Writes index (.runs index)
  | locks : Writes index (.locks index)
  | sends (count : Nat) : Writes index (.sends index count)
  | returns : Writes index (.returns index)
  | throws : Writes index (.throws index)

namespace Responses

/-! ## What is written -/

theorem answer_sendable {message : Message} {outcome : Outcome} (nonempty : message.uri ≠ [])
    (bounded : message.uri.length ≤ 65535)
    (small : (answer message outcome).size ≤ Message.MAX_MESSAGE_SIZE) :
    (answer message outcome).Sendable := by
  cases outcome with
  | value parcel => exact ⟨.inl rfl, nonempty, bounded, small, Nat.le_refl _⟩
  | exception => exact Server.exceptionMessage_sendable nonempty bounded

/-- A response of a size that is allowed is written as a whole. -/
theorem write_answer {message : Message} {outcome : Outcome} (nonempty : message.uri ≠ [])
    (bounded : message.uri.length ≤ 65535)
    (small : (answer message outcome).size ≤ Message.MAX_MESSAGE_SIZE) :
    ∃ output, (answer message outcome).write (DataOutputStream.new ⟨[], false⟩) = .ok ((), output) ∧
      output.mOutputStream.bytes = (answer message outcome).encoding := by
  have sendable := answer_sendable nonempty bounded small
  rcases (Message.write_encodes sendable).writes (DataOutputStream.new_valid ⟨[], false⟩) with
    ⟨output, written, _, content⟩
  exact ⟨output, written, content.trans (List.nil_append _)⟩

theorem write_large {message : Message} (large : Message.MAX_MESSAGE_SIZE < message.size)
    (stream : DataOutputStream) : ∃ thrown, message.write stream = .error thrown := by
  rw [Message.write, if_pos large]
  exact ⟨_, rfl⟩

theorem bytes_of_write {message : Message} {outcome : Outcome} {output : DataOutputStream}
    (nonempty : message.uri ≠ []) (bounded : message.uri.length ≤ 65535)
    (written : (answer message outcome).write (DataOutputStream.new ⟨[], false⟩) =
      .ok ((), output)) :
    output.mOutputStream.bytes = (answer message outcome).encoding := by
  by_cases large : Message.MAX_MESSAGE_SIZE < (answer message outcome).size
  · rcases write_large large (DataOutputStream.new ⟨[], false⟩) with ⟨thrown, fails⟩
    rw [fails] at written
    cases written
  · rcases write_answer nonempty bounded (Nat.not_lt.mp large) with ⟨output', written', bytes⟩
    rw [written'] at written
    cases written
    exact bytes

variable {σ β : Type} (source : InputStream σ)

/-- The wire of the connection of a request. -/
def wireOf (server : Responses σ) (request : Request) : List (Nat × UInt8) :=
  (server.connections request.connection).wire

/-- Each request with a promise is answered by one whole response, in one piece, unless its
connection is closed, and its answer does not get stuck. -/
structure Answers (β : Type) (source : InputStream σ) (server : Responses σ) : Prop where
  written : ∀ index, index < server.made → (server.requests index).promised = true →
    (server.requests index).stage = .answered →
      ∃ outcome, (server.requests index).outcome = some outcome ∧
        Within (server.wireOf (server.requests index)) index
          (answer (server.requests index).message outcome).encoding
  failed : ∀ index, index < server.made → (server.requests index).promised = true →
    (server.requests index).stage = .failed →
      (server.connections (server.requests index).connection).closed = true
  goesOn : ∀ index, index < server.made → (server.requests index).outcome ≠ none →
    (server.requests index).stage ≠ .returned → (server.requests index).stage ≠ .answered →
      (server.requests index).stage ≠ .failed →
        ∃ other, (other = index ∨ server.mLock = some other) ∧
          ∃ action : ResponseAction β, action.Writes other ∧
            ∃ next, server.step source action = some next

/-- A response for a promise is not too large and the socket takes it, unless the connection has
been closed. -/
def Writable (server : Responses σ) : ResponseAction β → Prop
  | .locks index =>
      (server.requests index).promised = true →
        (server.connections (server.requests index).connection).closed = true ∨
          ∀ outcome, (server.requests index).outcome = some outcome →
            (answer (server.requests index).message outcome).size ≤ Message.MAX_MESSAGE_SIZE
  | .throws index =>
      (server.requests index).promised = true →
        (server.connections (server.requests index).connection).closed = true
  | _ => True

/-! ## The invariant -/

/-- What is on the wire for a request. -/
structure Sound (index : Nat) (request : Request) (wire : List (Nat × UInt8)) : Prop where
  addressed : request.promised = true →
    request.message.uri ≠ [] ∧ request.message.uri.length ≤ 65535
  complete : request.stage = .returned ∨ request.stage = .registered ∨ request.outcome ≠ none
  unwritten : request.stage = .returned ∨ request.stage = .registered ∨ request.stage = .runs →
    Ends wire index ([] : List UInt8)
  writing : ∀ rest, request.stage = .writes rest → ∃ done, Ends wire index done ∧
    (request.promised = true → ∃ outcome, request.outcome = some outcome ∧
      done ++ rest = (answer request.message outcome).encoding)
  answered : request.stage = .answered → request.promised = true →
    ∃ outcome, request.outcome = some outcome ∧
      Within wire index (answer request.message outcome).encoding

/-- A request whose answer is being written has an outcome. -/
theorem Sound.outcome_of_writes {index : Nat} {request : Request} {wire : List (Nat × UInt8)}
    {rest : List UInt8} (sound : Sound index request wire) (writes : request.stage = .writes rest) :
    request.outcome ≠ none := by
  rcases sound.complete with returned | registered | complete
  · cases writes.symm.trans returned
  · cases writes.symm.trans registered
  · exact complete

theorem Sound.append_other {index other : Nat} {request : Request} {wire : List (Nat × UInt8)}
    {added : List UInt8} (sound : Sound index request wire) (apart : other ≠ index)
    (notWriting : ∀ rest, request.stage ≠ .writes rest) :
    Sound index request (wire ++ added.map (Prod.mk other)) where
  addressed := sound.addressed
  complete := sound.complete
  unwritten := fun stage => (sound.unwritten stage).append_other apart
  writing := fun rest stage => absurd stage (notWriting rest)
  answered := by
    intro stage promised
    rcases sound.answered stage promised with ⟨outcome, completed, within⟩
    exact ⟨outcome, completed, within.append_other apart⟩

structure Inv (content : σ → List UInt8) (server : Responses σ) : Prop where
  sound : ∀ index, index < server.made →
    Sound index (server.requests index) (server.wireOf (server.requests index))
  labelled : ∀ connection, ∀ item ∈ (server.connections connection).wire, item.1 < server.made
  lock : ∀ index, server.mLock = some index ↔
    index < server.made ∧ ∃ rest, (server.requests index).stage = .writes rest
  valid : ∀ connection,
    (DataInputStream.port content).valid (server.connections connection).input
  settled : ∀ index, index < server.made → (server.requests index).promised = true →
    (server.requests index).stage = .failed →
      (server.connections (server.requests index).connection).closed = true

variable {content : σ → List UInt8} {server next : Responses σ}

theorem initial_inv (streams : Nat → σ) : (initial streams).Inv content where
  sound := fun _ below => absurd below (Nat.not_lt_zero _)
  labelled := fun _ _ member => absurd member List.not_mem_nil
  lock := fun index =>
    iff_of_false (Option.some_ne_none index).symm fun made => Nat.not_lt_zero _ made.1
  valid := fun connection => DataInputStream.new_valid (streams connection)
  settled := fun _ below => absurd below (Nat.not_lt_zero _)

/-- One request changes, and its bytes are appended to the wire. -/
structure Moves (server next : Responses σ) (index : Nat) (added : List UInt8) : Prop where
  made : next.made = server.made
  others : ∀ other, other ≠ index → next.requests other = server.requests other
  connection : (next.requests index).connection = (server.requests index).connection
  wire : (next.connections (server.requests index).connection).wire =
    (server.connections (server.requests index).connection).wire ++ added.map (Prod.mk index)
  otherWires : ∀ other, other ≠ (server.requests index).connection →
    (next.connections other).wire = (server.connections other).wire
  input : ∀ other, (next.connections other).input = (server.connections other).input
  closed : ∀ other, (server.connections other).closed = true →
    (next.connections other).closed = true

theorem Inv.of_moves {index : Nat} {added : List UInt8} (inv : server.Inv content)
    (moves : Moves server next index added) (below : index < server.made)
    (alone : added = [] ∨ server.mLock = some index)
    (sound : Sound index (next.requests index) (next.wireOf (next.requests index)))
    (lock : ∀ other, next.mLock = some other ↔
      other < server.made ∧ ∃ rest, (next.requests other).stage = .writes rest)
    (settled : (next.requests index).promised = true → (next.requests index).stage = .failed →
      (next.connections (server.requests index).connection).closed = true) :
    next.Inv content where
  sound := by
    intro other belowOther
    rw [moves.made] at belowOther
    by_cases same : other = index
    · rw [same]
      exact sound
    · have before := inv.sound other belowOther
      rw [moves.others other same]
      rw [wireOf] at before ⊢
      by_cases shared : (server.requests other).connection = (server.requests index).connection
      · rw [shared] at before ⊢
        rw [moves.wire]
        cases alone with
        | inl nothing =>
            rw [nothing, List.map_nil, List.append_nil]
            exact before
        | inr holds =>
            refine before.append_other (Ne.symm same) fun rest writes => same ?_
            have locked := (inv.lock other).mpr ⟨belowOther, rest, writes⟩
            rw [holds] at locked
            exact (Option.some.inj locked).symm
      · rw [moves.otherWires _ shared]
        exact before
  labelled := by
    intro connection item member
    rw [moves.made]
    by_cases same : connection = (server.requests index).connection
    · rw [same, moves.wire] at member
      cases List.mem_append.mp member with
      | inl before => exact inv.labelled _ item before
      | inr new =>
          rcases List.mem_map.mp new with ⟨byte, _, rfl⟩
          exact below
    · rw [moves.otherWires connection same] at member
      exact inv.labelled connection item member
  lock := by
    intro other
    rw [moves.made]
    exact lock other
  valid := by
    intro connection
    rw [moves.input]
    exact inv.valid connection
  settled := by
    intro other belowOther promised failed
    rw [moves.made] at belowOther
    by_cases same : other = index
    · rw [same] at promised failed ⊢
      rw [moves.connection]
      exact settled promised failed
    · rw [moves.others other same] at promised failed ⊢
      exact moves.closed _ (inv.settled other belowOther promised failed)

/-! ## Requests -/

theorem close_closed {index other : Nat} (closed : (server.connections other).closed = true) :
    ((server.close index).connections other).closed = true := by
  by_cases same : other = index
  · rw [same]
    exact field_update_self _ _ _ Channel.closed
  · exact (field_update_of_ne _ _ Channel.closed same).trans closed

theorem close_inv (inv : server.Inv content) (index : Nat) : (server.close index).Inv content := by
  have wire : ∀ connection, ((server.close index).connections connection).wire =
      (server.connections connection).wire :=
    field_update_kept Channel.wire rfl
  have input : ∀ connection, ((server.close index).connections connection).input =
      (server.connections connection).input :=
    field_update_kept Channel.input rfl
  constructor
  · intro other below
    rw [wireOf, wire]
    exact inv.sound other below
  · intro connection
    rw [wire]
    exact inv.labelled connection
  · exact inv.lock
  · intro connection
    rw [input]
    exact inv.valid connection
  · intro other below promised failed
    exact close_closed (inv.settled other below promised failed)

theorem setInput_inv (inv : server.Inv content) (index : Nat) {input : DataInputStream σ}
    (valid : (DataInputStream.port content).valid input) :
    (server.setInput index input).Inv content := by
  have wire : ∀ connection, ((server.setInput index input).connections connection).wire =
      (server.connections connection).wire :=
    field_update_kept Channel.wire rfl
  have closed : ∀ connection, ((server.setInput index input).connections connection).closed =
      (server.connections connection).closed :=
    field_update_kept Channel.closed rfl
  constructor
  · intro other below
    rw [wireOf, wire]
    exact inv.sound other below
  · intro connection
    rw [wire]
    exact inv.labelled connection
  · exact inv.lock
  · intro connection
    by_cases same : connection = index
    · have read : ((server.setInput index input).connections connection).input = input := by
        rw [same]
        exact field_update_self _ _ _ Channel.input
      rw [read]
      exact valid
    · have kept : ((server.setInput index input).connections connection).input =
          (server.connections connection).input :=
        field_update_of_ne _ _ Channel.input same
      rw [kept]
      exact inv.valid connection
  · intro other below promised failed
    exact (closed _).trans (inv.settled other below promised failed)

/-- A new request, for which nothing has been written. -/
theorem add_inv (inv : server.Inv content) {request : Request}
    (addressed : request.promised = true →
      request.message.uri ≠ [] ∧ request.message.uri.length ≤ 65535)
    (begins : request.stage = .returned ∨ request.stage = .runs ∧ request.outcome ≠ none) :
    (server.add request).Inv content := by
  have added : (server.add request).requests server.made = request := Function.update_self _ _ _
  have old : ∀ {index}, index < server.made →
      (server.add request).requests index = server.requests index :=
    fun below => Function.update_of_ne (Nat.ne_of_lt below) _ _
  have cases : ∀ {index}, index < (server.add request).made →
      index = server.made ∨ index < server.made := by
    intro index below
    exact (Nat.lt_succ_iff_lt_or_eq.mp below).symm
  have notWriting : ∀ rest, request.stage ≠ .writes rest := by
    intro rest writes
    rw [writes] at begins
    cases begins with
    | inl returned => cases returned
    | inr runs => cases runs.1
  constructor
  · intro index below
    rcases cases below with rfl | below
    · rw [added]
      constructor
      · exact addressed
      · cases begins with
        | inl returned => exact .inl returned
        | inr runs => exact .inr (.inr runs.2)
      · intro _
        exact ends_nil fun item member => Nat.ne_of_lt (inv.labelled _ item member)
      · exact fun rest writes => absurd writes (notWriting rest)
      · intro answered
        rw [answered] at begins
        cases begins with
        | inl returned => cases returned
        | inr runs => cases runs.1
    · rw [old below]
      exact inv.sound index below
  · intro connection item member
    exact Nat.lt_succ_of_lt (inv.labelled connection item member)
  · intro index
    change server.mLock = some index ↔ _
    rw [inv.lock]
    constructor
    · rintro ⟨below, writes⟩
      rw [old below]
      exact ⟨Nat.lt_succ_of_lt below, writes⟩
    · rintro ⟨below, rest, writes⟩
      rcases cases below with rfl | below
      · rw [added] at writes
        exact absurd writes (notWriting rest)
      · rw [old below] at writes
        exact ⟨below, rest, writes⟩
  · exact inv.valid
  · intro index below promised failed
    rcases cases below with rfl | below
    · rw [added] at failed
      rw [failed] at begins
      cases begins with
      | inl returned => cases returned
      | inr runs => cases runs.1
    · rw [old below] at promised failed ⊢
      exact inv.settled index below promised failed

theorem findBinder_nonempty {runtime : Runtime β} {uri : List UInt8}
    {result : Option (IBinder β) × Runtime β} (found : Server.findBinder runtime uri = .ok result) :
    uri ≠ [] := by
  have settles : Server.Settles (Server.findBinder runtime uri) := by
    rw [found]
    exact Server.settles_ok result
  exact ((Server.findBinder_settles_iff runtime uri).mp settles).1

theorem turnOf_ne_promises (failure : Failure) : turnOf failure ≠ .promises := by
  rw [turnOf]
  split
  · exact Turn.noConfusion
  · exact Turn.noConfusion

/-- A promise is returned exactly where `onTransact` hands the transaction to a binder that
returns one. -/
theorem turn_promises_iff {runtime : Runtime β} {message : Message}
    (connection : Server.Connection σ) :
    turn runtime message = .promises ↔ ∃ binder runtime',
      Server.transact message runtime connection =
        .ok (.handed binder true, runtime', connection) := by
  have responds : ∀ (runtime : Runtime β) binder runtime',
      Server.respond message runtime connection ≠
        .ok (.handed binder true, runtime', connection) := by
    intro runtime binder runtime' responded
    rw [Server.respond] at responded
    split at responded
    · cases responded
    · split at responded
      · cases responded
      · cases responded
  have catches : ∀ (failure : Failure) (runtime : Runtime β) binder runtime',
      Server.catchFailure failure message runtime connection ≠
        .ok (.handed binder true, runtime', connection) := by
    intro failure runtime binder runtime' caught
    rw [Server.catchFailure] at caught
    split at caught
    · exact responds runtime binder runtime' caught
    · cases caught
  rw [turn, Server.transact]
  cases found : Server.findBinder runtime message.uri with
  | error failure =>
      refine iff_of_false (turnOf_ne_promises failure) ?_
      rintro ⟨binder, runtime', caught⟩
      exact catches _ _ _ _ caught
  | ok result =>
      rcases result with ⟨binder, runtime'⟩
      cases binder with
      | none =>
          refine iff_of_false Turn.noConfusion ?_
          rintro ⟨binder, runtime', responded⟩
          exact responds _ _ _ responded
      | some binder =>
          dsimp only
          cases runtime'.transactWith binder message.what message.data with
          | error failure =>
              refine iff_of_false (turnOf_ne_promises failure) ?_
              rintro ⟨binder, runtime', caught⟩
              exact catches _ _ _ _ caught
          | ok promise =>
              cases promise with
              | false =>
                  refine iff_of_false Turn.noConfusion ?_
                  rintro ⟨binder, runtime', handed⟩
                  cases handed
              | true => exact iff_of_true rfl ⟨binder, runtime', rfl⟩

theorem turn_nonempty {runtime : Runtime β} {message : Message}
    (promises : turn runtime message = .promises) : message.uri ≠ [] := by
  rw [turn] at promises
  cases found : Server.findBinder runtime message.uri with
  | error failure =>
      rw [found] at promises
      exact absurd promises (turnOf_ne_promises failure)
  | ok result => exact findBinder_nonempty found

theorem reads_inv {index : Nat} {runtime : Runtime β} (delivers : source.Delivers content)
    (inv : server.Inv content) (taken : server.reads source index runtime = some next) :
    next.Inv content := by
  rw [reads] at taken
  split at taken
  case isTrue => cases taken
  case isFalse =>
    rcases (Message.newMessage_reads source delivers).outcome (inv.valid index) with
      ⟨message, input, read, valid, bounded⟩ | ⟨thrown, fails, _⟩
    · rw [read] at taken
      have received := setInput_inv inv index valid
      dsimp only at taken
      split at taken
      · split at taken
        case h_1 =>
          cases taken
          exact received
        case h_2 promises =>
          cases taken
          exact add_inv received (fun _ => ⟨turn_nonempty promises, bounded⟩) (.inl rfl)
        case h_3 =>
          cases taken
          exact add_inv received (fun promised => Bool.noConfusion promised)
            (.inr ⟨rfl, Option.some_ne_none _⟩)
        case h_4 => cases taken
      · cases taken
        exact received
    · rw [fails] at taken
      cases taken
      exact close_inv inv index

/-! ## Answers -/

theorem update_moves {index : Nat} (lock : Option Nat) {request : Request}
    (connection : request.connection = (server.requests index).connection) :
    Moves server
      { server with mLock := lock, requests := Function.update server.requests index request }
      index [] where
  made := rfl
  others := fun _ apart => Function.update_of_ne apart _ _
  connection := (field_update_self _ _ _ Request.connection).trans connection
  wire := (List.append_nil _).symm
  otherWires := fun _ _ => rfl
  input := fun _ => rfl
  closed := fun _ closed => closed

theorem Inv.lock_update {index : Nat} {lock : Option Nat} {request : Request}
    (inv : server.Inv content) (below : index < server.made)
    (holds : lock = some index ↔ ∃ rest, request.stage = .writes rest)
    (others : ∀ other, other ≠ index → (lock = some other ↔ server.mLock = some other))
    (other : Nat) :
    lock = some other ↔ other < server.made ∧
      ∃ rest, (Function.update server.requests index request other).stage = .writes rest := by
  by_cases same : other = index
  · rw [same, Function.update_self, holds]
    exact (and_iff_right below).symm
  · rw [Function.update_of_ne same, others other same]
    exact inv.lock other

/-- A request changes, but not the wire. -/
theorem Inv.update {index : Nat} {lock : Option Nat} {request : Request}
    (inv : server.Inv content) (below : index < server.made)
    (connection : request.connection = (server.requests index).connection)
    (sound : Sound index request (server.wireOf (server.requests index)))
    (holds : lock = some index ↔ ∃ rest, request.stage = .writes rest)
    (others : ∀ other, other ≠ index → (lock = some other ↔ server.mLock = some other))
    (settled : request.promised = true → request.stage = .failed →
      (server.connections (server.requests index).connection).closed = true) :
    Inv content
      { server with
        mLock := lock
        requests := Function.update server.requests index request } := by
  have updated : Function.update server.requests index request index = request :=
    Function.update_self _ _ _
  refine inv.of_moves (update_moves lock connection) below (.inl rfl) ?_
    (inv.lock_update below holds others) ?_
  · dsimp only
    rw [updated, wireOf, connection]
    exact sound
  · dsimp only
    rw [updated]
    exact settled

/-- A request that does not write does not hold the lock. -/
theorem Inv.unlocked {index : Nat} (inv : server.Inv content)
    (notWriting : ∀ rest, (server.requests index).stage ≠ .writes rest) :
    server.mLock ≠ some index := by
  intro locked
  rcases ((inv.lock index).mp locked).2 with ⟨rest, writes⟩
  exact notWriting rest writes

theorem completes_inv {index : Nat} {outcome : Outcome} (inv : server.Inv content)
    (taken : server.completes index outcome = some next) : next.Inv content := by
  rw [completes] at taken
  split at taken
  case isFalse => cases taken
  case isTrue incomplete =>
    cases taken
    have before := inv.sound index incomplete.1
    have none : (server.requests index).outcome = none := Option.isNone_iff_eq_none.mp incomplete.2
    have early : (server.requests index).stage = .returned ∨
        (server.requests index).stage = .registered := by
      rcases before.complete with returned | registered | complete
      · exact .inl returned
      · exact .inr registered
      · exact absurd none complete
    have notWriting : ∀ rest, (server.requests index).stage ≠ .writes rest := by
      intro rest writes
      rw [writes] at early
      cases early with
      | inl returned => cases returned
      | inr registered => cases registered
    refine inv.update incomplete.1 rfl ?_ ?_ (fun _ _ => Iff.rfl) ?_
    · constructor
      · exact before.addressed
      · exact .inr (.inr (Option.some_ne_none outcome))
      · exact before.unwritten
      · exact fun rest writes => absurd writes (notWriting rest)
      · intro answered
        have answered : (server.requests index).stage = .answered := answered
        rw [answered] at early
        cases early with
        | inl returned => cases returned
        | inr registered => cases registered
    · exact iff_of_false (inv.unlocked notWriting) fun writes => notWriting _ writes.choose_spec
    · intro _ failed
      have failed : (server.requests index).stage = .failed := failed
      rw [failed] at early
      cases early with
      | inl returned => cases returned
      | inr registered => cases registered

theorem registers_inv {index : Nat} (inv : server.Inv content)
    (taken : server.registers index = some next) : next.Inv content := by
  rw [registers] at taken
  split at taken
  case isFalse => cases taken
  case isTrue below =>
    split at taken
    case h_2 => cases taken
    case h_1 returned =>
      cases taken
      have before := inv.sound index below
      have notWriting : ∀ rest, (server.requests index).stage ≠ .writes rest := by
        rw [returned]
        exact fun _ => Stage.noConfusion
      refine inv.update below rfl ?_ ?_ (fun _ _ => Iff.rfl) ?_
      · constructor
        · exact before.addressed
        · exact .inr (.inl rfl)
        · exact fun _ => before.unwritten (.inl returned)
        · exact fun _ writes => Stage.noConfusion writes
        · exact fun answered => Stage.noConfusion answered
      · exact iff_of_false (inv.unlocked notWriting) fun writes =>
          Stage.noConfusion writes.choose_spec
      · exact fun _ failed => Stage.noConfusion failed

theorem runs_inv {index : Nat} (inv : server.Inv content)
    (taken : server.runs index = some next) : next.Inv content := by
  rw [runs] at taken
  split at taken
  case isFalse => cases taken
  case isTrue complete =>
    split at taken
    case h_2 => cases taken
    case h_1 registered =>
      cases taken
      have before := inv.sound index complete.1
      have notWriting : ∀ rest, (server.requests index).stage ≠ .writes rest := by
        rw [registered]
        exact fun _ => Stage.noConfusion
      refine inv.update complete.1 rfl ?_ ?_ (fun _ _ => Iff.rfl) ?_
      · constructor
        · exact before.addressed
        · exact .inr (.inr (Option.isSome_iff_ne_none.mp complete.2))
        · exact fun _ => before.unwritten (.inr (.inl registered))
        · exact fun _ writes => Stage.noConfusion writes
        · exact fun answered => Stage.noConfusion answered
      · exact iff_of_false (inv.unlocked notWriting) fun writes =>
          Stage.noConfusion writes.choose_spec
      · exact fun _ failed => Stage.noConfusion failed

theorem fail_inv {index : Nat} (inv : server.Inv content) (below : index < server.made)
    (complete : (server.requests index).outcome ≠ none)
    (locked : ∀ other, server.mLock = some other → other = index)
    (settled : (server.requests index).promised = true →
      (server.connections (server.requests index).connection).closed = true) :
    (server.fail index).Inv content := by
  have before := inv.sound index below
  have failed : Inv content ({ server with mLock := none }.setStage index .failed) := by
    refine inv.update below rfl ?_ ?_ ?_ (fun promised _ => settled promised)
    · constructor
      · exact before.addressed
      · exact .inr (.inr complete)
      · rintro (returned | registered | runs)
        · cases returned
        · cases registered
        · cases runs
      · exact fun _ writes => Stage.noConfusion writes
      · exact fun answered => Stage.noConfusion answered
    · exact iff_of_false (Option.some_ne_none index).symm fun writes =>
        Stage.noConfusion writes.choose_spec
    · intro other apart
      exact iff_of_false (Option.some_ne_none other).symm fun holds => apart (locked other holds)
  rw [fail]
  split
  · exact failed
  · exact close_inv failed _

theorem locks_inv {index : Nat} (inv : server.Inv content)
    (writable : server.Writable (.locks index : ResponseAction β))
    (taken : server.locks index = some next) : next.Inv content := by
  rw [locks] at taken
  split at taken
  case isFalse => cases taken
  case isTrue free =>
    have below := free.1
    have unlocked : server.mLock = none := Option.isNone_iff_eq_none.mp free.2
    split at taken
    case h_2 => cases taken
    case h_1 outcome runs completed =>
      have before := inv.sound index below
      have complete : (server.requests index).outcome ≠ none := by
        rw [completed]
        exact Option.some_ne_none outcome
      dsimp only at taken
      split at taken
      case h_1 thrown fails =>
        cases taken
        refine fail_inv inv below complete ?_ ?_
        · intro other locked
          rw [unlocked] at locked
          cases locked
        · intro promised
          refine (writable promised).resolve_right fun small => ?_
          have addressed := before.addressed promised
          rcases write_answer addressed.1 addressed.2 (small outcome completed) with
            ⟨output, written, _⟩
          rw [written] at fails
          cases fails
      case h_2 output written =>
        cases taken
        refine inv.update below rfl ?_ ?_ ?_ ?_
        · constructor
          · exact before.addressed
          · exact .inr (.inr complete)
          · rintro (returned | registered | runs)
            · cases returned
            · cases registered
            · cases runs
          · intro rest writes
            cases writes
            refine ⟨[], before.unwritten (.inr (.inr runs)), fun promised => ?_⟩
            have addressed := before.addressed promised
            exact ⟨outcome, completed, bytes_of_write addressed.1 addressed.2 written⟩
          · exact fun answered => Stage.noConfusion answered
        · exact iff_of_true rfl ⟨_, rfl⟩
        · intro other apart
          rw [unlocked]
          exact iff_of_false (fun same => apart (Option.some.inj same).symm)
            (Option.some_ne_none other).symm
        · exact fun _ failed => Stage.noConfusion failed

theorem sends_moves {index : Nat} (sent : List UInt8) (stage : Stage) :
    Moves server ((server.push index sent).setStage index stage) index sent where
  made := rfl
  others := fun _ apart => Function.update_of_ne apart _ _
  connection := field_update_self _ _ _ Request.connection
  wire := field_update_self _ _ _ Channel.wire
  otherWires := fun _ apart => field_update_of_ne _ _ Channel.wire apart
  input := field_update_kept Channel.input rfl
  closed := by
    intro other closed
    have kept : ∀ other, ((server.push index sent).connections other).closed =
        (server.connections other).closed := field_update_kept Channel.closed rfl
    exact (kept other).trans closed

theorem sends_inv {index count : Nat} (inv : server.Inv content)
    (taken : server.sends index count = some next) : next.Inv content := by
  rw [sends] at taken
  split at taken
  case isFalse => cases taken
  case isTrue isOpen =>
    have below := isOpen.1
    split at taken
    case h_2 => cases taken
    case h_1 rest writes =>
      split at taken
      case isFalse => cases taken
      case isTrue =>
        cases taken
        have before := inv.sound index below
        have locked := (inv.lock index).mpr ⟨below, rest, writes⟩
        have moves : Moves server ((server.push index (rest.take count)).setStage index
            (.writes (rest.drop count))) index (rest.take count) := sends_moves _ _
        have updated : ((server.push index (rest.take count)).setStage index
            (.writes (rest.drop count))).requests index =
            { server.requests index with stage := .writes (rest.drop count) } :=
          Function.update_self _ _ _
        refine inv.of_moves moves below (.inr locked) ?_ (inv.lock_update below ?_ ?_) ?_
        · rw [wireOf, moves.connection, moves.wire, updated]
          constructor
          · exact before.addressed
          · exact .inr (.inr (before.outcome_of_writes writes))
          · rintro (returned | registered | runs)
            · cases returned
            · cases registered
            · cases runs
          · intro remaining left
            cases left
            rcases before.writing rest writes with ⟨done, ends, whole⟩
            refine ⟨done ++ rest.take count, ends.append, ?_⟩
            rw [List.append_assoc, List.take_append_drop]
            exact whole
          · exact fun answered => Stage.noConfusion answered
        · exact iff_of_true locked ⟨_, rfl⟩
        · exact fun _ _ => Iff.rfl
        · rw [updated]
          exact fun _ failed => Stage.noConfusion failed

theorem returns_inv {index : Nat} (inv : server.Inv content)
    (taken : server.returns index = some next) : next.Inv content := by
  rw [returns] at taken
  split at taken
  case isFalse => cases taken
  case isTrue below =>
    split at taken
    case h_2 => cases taken
    case h_1 writes =>
      cases taken
      have before := inv.sound index below
      have locked := (inv.lock index).mpr ⟨below, [], writes⟩
      rcases before.writing [] writes with ⟨done, ends, whole⟩
      refine inv.update below rfl ?_ ?_ ?_ (fun _ failed => Stage.noConfusion failed)
      · constructor
        · exact before.addressed
        · exact .inr (.inr (before.outcome_of_writes writes))
        · rintro (returned | registered | runs)
          · cases returned
          · cases registered
          · cases runs
        · exact fun _ writes => Stage.noConfusion writes
        · intro _ promised
          rcases whole promised with ⟨outcome, completed, bytes⟩
          rw [List.append_nil] at bytes
          refine ⟨outcome, completed, ?_⟩
          rw [← bytes]
          exact ends.within
      · exact iff_of_false (Option.some_ne_none index).symm fun writes =>
          Stage.noConfusion writes.choose_spec
      · intro other apart
        rw [locked]
        exact iff_of_false (Option.some_ne_none other).symm fun same =>
          apart (Option.some.inj same).symm

theorem throws_inv {index : Nat} (inv : server.Inv content)
    (writable : server.Writable (.throws index : ResponseAction β))
    (taken : server.throws index = some next) : next.Inv content := by
  rw [throws] at taken
  split at taken
  case isFalse => cases taken
  case isTrue below =>
    split at taken
    case h_2 => cases taken
    case h_1 rest writes =>
      split at taken
      case isFalse => cases taken
      case isTrue =>
        cases taken
        have before := inv.sound index below
        have locked := (inv.lock index).mpr ⟨below, rest, writes⟩
        refine fail_inv inv below ?_ ?_ writable
        · exact before.outcome_of_writes writes
        · intro other holds
          rw [locked] at holds
          exact (Option.some.inj holds).symm

/-- Each step that is allowed keeps the invariant. -/
theorem step_inv {action : ResponseAction β} (delivers : source.Delivers content)
    (inv : server.Inv content) (writable : server.Writable action)
    (taken : server.step source action = some next) : next.Inv content := by
  cases action with
  | reads index runtime => exact reads_inv source delivers inv taken
  | completes index outcome => exact completes_inv inv taken
  | registers index => exact registers_inv inv taken
  | runs index => exact runs_inv inv taken
  | locks index => exact locks_inv inv writable taken
  | sends index count => exact sends_inv inv taken
  | returns index => exact returns_inv inv taken
  | throws index => exact throws_inv inv writable taken
  | closes index =>
      cases taken
      exact close_inv inv index

/-! ## Answers that go on -/

theorem locks_exists {index : Nat} (below : index < server.made) (unlocked : server.mLock = none)
    (runs : (server.requests index).stage = .runs)
    (complete : (server.requests index).outcome ≠ none) :
    ∃ next, server.locks index = some next := by
  rcases Option.ne_none_iff_exists'.mp complete with ⟨outcome, completed⟩
  rw [locks, if_pos ⟨below, Option.isNone_iff_eq_none.mpr unlocked⟩, runs, completed]
  dsimp only
  split
  · exact ⟨_, rfl⟩
  · exact ⟨_, rfl⟩

/-- Who has the lock can write, return or throw. -/
theorem Inv.writer_goesOn {index : Nat} (inv : server.Inv content)
    (locked : server.mLock = some index) :
    ∃ action : ResponseAction β, action.Writes index ∧
      ∃ next, server.step source action = some next := by
  rcases (inv.lock index).mp locked with ⟨below, rest, writes⟩
  cases rest with
  | nil =>
      refine ⟨.returns index, .returns, ?_⟩
      rw [step, returns, if_pos below, writes]
      exact ⟨_, rfl⟩
  | cons byte rest =>
      cases closed : (server.connections (server.requests index).connection).closed with
      | true =>
          refine ⟨.throws index, .throws, ?_⟩
          rw [step, throws, if_pos below, writes]
          exact ⟨_, if_pos (.inr closed)⟩
      | false =>
          refine ⟨.sends index 1, .sends 1, ?_⟩
          rw [step, sends, if_pos ⟨below, closed⟩, writes]
          exact ⟨_, if_pos ⟨Nat.zero_lt_one, Nat.le_add_left _ _⟩⟩

theorem Inv.answers (inv : server.Inv content) : Answers β source server where
  written := fun index below promised answered =>
    (inv.sound index below).answered answered promised
  failed := inv.settled
  goesOn := by
    intro index below complete notReturned notAnswered notFailed
    cases stage : (server.requests index).stage with
    | returned => exact absurd stage notReturned
    | registered =>
        refine ⟨index, .inl rfl, .runs index, .runs, ?_⟩
        rw [step, runs, if_pos ⟨below, Option.isSome_iff_ne_none.mpr complete⟩, stage]
        exact ⟨_, rfl⟩
    | runs =>
        cases locked : server.mLock with
        | none =>
            exact ⟨index, .inl rfl, .locks index, .locks,
              locks_exists below locked stage complete⟩
        | some other => exact ⟨other, .inr rfl, inv.writer_goesOn source locked⟩
    | writes rest =>
        have locked := (inv.lock index).mpr ⟨below, rest, stage⟩
        exact ⟨index, .inl rfl, inv.writer_goesOn source locked⟩
    | answered => exact absurd stage notAnswered
    | failed => exact absurd stage notFailed

/-- The exception of a failed `write` does not get to the connection. -/
theorem Answers.closed_of_fail {index : Nat} (answers : Answers β source (server.fail index))
    (below : index < server.made) (promised : (server.requests index).promised = true) :
    (server.connections (server.requests index).connection).closed = true := by
  rw [fail, if_pos promised] at answers
  have failed : ({ server with mLock := none }.setStage index .failed).requests index =
      { server.requests index with stage := .failed } := Function.update_self _ _ _
  have closed := answers.failed index below
  rw [failed] at closed
  exact closed promised rfl

theorem writable_of_answers {action : ResponseAction β}
    (taken : server.step source action = some next) (answers : Answers β source next) :
    server.Writable action := by
  cases action with
  | locks index =>
      intro promised
      rw [step, locks] at taken
      split at taken
      case isFalse => cases taken
      case isTrue free =>
        split at taken
        case h_2 => cases taken
        case h_1 outcome runs completed =>
          dsimp only at taken
          split at taken
          case h_1 =>
            cases taken
            exact .inl (answers.closed_of_fail source free.1 promised)
          case h_2 output written =>
            refine .inr fun other completedOther => Nat.not_lt.mp fun large => ?_
            rw [completed] at completedOther
            rw [← Option.some.inj completedOther] at large
            rcases write_large large (DataOutputStream.new ⟨[], false⟩) with ⟨thrown, fails⟩
            rw [fails] at written
            cases written
  | throws index =>
      intro promised
      rw [step, throws] at taken
      split at taken
      case isFalse => cases taken
      case isTrue below =>
        split at taken
        case h_2 => cases taken
        case h_1 =>
          split at taken
          case isFalse => cases taken
          case isTrue =>
            cases taken
            exact answers.closed_of_fail source below promised
  | reads => trivial
  | completes => trivial
  | registers => trivial
  | runs => trivial
  | sends => trivial
  | returns => trivial
  | closes => trivial

/-- In every run, requests are answered as a whole or their connections are closed, if and only
if `write` does not throw for a promise while the connection is open. -/
theorem answers_iff_writable (delivers : source.Delivers content) (streams : Nat → σ)
    (actions : List (ResponseAction β)) :
    Always (fun server action => server.step source action) (Answers β source)
        (initial streams) actions ↔
      Meets (fun server action => server.step source action) Writable
        (initial streams) actions := by
  have holds : ∀ server : Responses σ, server.Inv content → Answers β source server :=
    fun _ inv => inv.answers source
  have keeps : ∀ (server : Responses σ) (action : ResponseAction β) next, server.Inv content →
      server.Writable action → server.step source action = some next → next.Inv content :=
    fun _ _ _ inv writable taken => step_inv source delivers inv writable taken
  have exact : ∀ (server : Responses σ) (action : ResponseAction β) next, server.Inv content →
      server.step source action = some next → Answers β source next → server.Writable action :=
    fun _ _ _ _ taken answers => writable_of_answers source taken answers
  exact always_iff_meets holds keeps exact (initial_inv streams) actions

/-- A node on which every binder returns a promise. -/
def promising : Runtime Unit where
  mNodeId := 1
  mBinderUris _ := some (some ())
  mPlugins _ := none
  mProxyIdGenerator := 1
  alive _ := true
  transact _ _ _ := .promise

/-- The bytes of a transaction for a binder of the node. -/
def transaction : List UInt8 :=
  Message.encoding
    { type := 1, uri := String.valueOf "mindroid://1.2", transactionId := 5, what := 7,
      data := [], size := 0 }

/-- A promise is completed before `then` is called, and the socket takes two bytes and fails after
the connection has been closed. -/
theorem closed_answers :
    Always (fun server action => server.step (.chunked 3) action) (Answers Unit (.chunked 3))
      (initial fun _ => transaction)
      [.reads 0 promising, .completes 0 (.value .obtain), .registers 0, .runs 0, .locks 0,
        .sends 0 2, .closes 0, .throws 0] := by
  have positive : 0 < 3 := by decide
  have delivers := (InputStream.chunked_lawful positive).delivers
  apply (answers_iff_writable (.chunked 3) delivers (fun _ => transaction) _).mpr
  intro _ taken
  cases taken
  refine ⟨trivial, fun _ taken => ?_⟩
  cases taken
  refine ⟨trivial, fun _ taken => ?_⟩
  cases taken
  refine ⟨trivial, fun _ taken => ?_⟩
  cases taken
  refine ⟨trivial, fun _ taken => ?_⟩
  cases taken
  refine ⟨fun _ => .inr fun outcome completed => ?_, fun _ taken => ?_⟩
  · cases completed
    exact Nat.zero_le _
  · cases taken
    refine ⟨trivial, fun _ taken => ?_⟩
    cases taken
    refine ⟨trivial, fun _ taken => ?_⟩
    cases taken
    exact ⟨fun _ => rfl, trivial⟩

/-- A parcel that no message has room for. -/
def largeParcel : Parcel where
  mDataOutputStream := DataOutputStream.new ⟨List.replicate (Message.MAX_MESSAGE_SIZE + 1) 0, false⟩
  mDataInputStream := none

/-- A response to a promise that gets the lock while its connection is open is not too large. -/
theorem small_of_always {index : Nat}
    (always : Always (fun server (action : ResponseAction β) => server.step source action)
      (Answers β source) server [.locks index])
    (below : index < server.made) (unlocked : server.mLock = none)
    (runs : (server.requests index).stage = .runs) {outcome : Outcome}
    (completed : (server.requests index).outcome = some outcome)
    (promised : (server.requests index).promised = true)
    (isOpen : (server.connections (server.requests index).connection).closed = false) :
    (answer (server.requests index).message outcome).size ≤ Message.MAX_MESSAGE_SIZE := by
  have complete : (server.requests index).outcome ≠ none := by
    rw [completed]
    exact Option.some_ne_none outcome
  rcases locks_exists below unlocked runs complete with ⟨next, taken⟩
  have writable : server.Writable (.locks index : ResponseAction β) :=
    writable_of_answers source taken (always.2 next taken).start
  cases writable promised with
  | inl closed =>
      rw [isOpen] at closed
      cases closed
  | inr small => exact small outcome completed

/-- A promise is completed with a large parcel: there is no response, and the connection stays
open. -/
theorem large_unanswered :
    ¬Always (fun server action => server.step (.chunked 3) action) (Answers Unit (.chunked 3))
      (initial fun _ => transaction)
      [.reads 0 promising, .registers 0, .completes 0 (.value largeParcel), .runs 0, .locks 0] := by
  intro always
  have writing := (((always.2 _ rfl).2 _ rfl).2 _ rfl).2 _ rfl
  have small : (List.replicate (Message.MAX_MESSAGE_SIZE + 1) (0 : UInt8)).length ≤
      Message.MAX_MESSAGE_SIZE :=
    small_of_always (.chunked 3) writing Nat.zero_lt_one rfl rfl rfl rfl rfl
  rw [List.length_replicate] at small
  exact Nat.not_succ_le_self _ small

end Responses

end Plugin

end Mindroid
