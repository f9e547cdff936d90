import Mindroid.Runtime.System.Io.AbstractServer

/-!
# Runs of a server

As long as no `onTransact` throws, only the thread that sets a connection up and the thread
that shuts the server down close connections, each connection is closed by one of them, and
neither of them is waited for by a connection.  A connection whose `onTransact` throws closes
itself in its own thread and so waits for itself.
-/

set_option autoImplicit false

namespace Mindroid

open Foundation

namespace AbstractServer

variable {server server' : AbstractServer} {index : Nat}

@[simp] theorem connections_modify_self (change : Connection → Connection) :
    (server.modify index change).connections index = change (server.connections index) :=
  Function.update_self ..

theorem connections_modify_of_ne {other : Nat} (different : other ≠ index)
    (change : Connection → Connection) :
    (server.modify index change).connections other = server.connections other :=
  Function.update_of_ne different ..

/-- A connection that no closing call has reached. -/
structure Connection.Open (connection : Connection) : Prop where
  server : connection.mServer = true
  disconnected : connection.disconnected = 0
  closed : connection.closed = 0

/-- A connection whose only closing call stands at a stage. -/
structure Connection.ClosesAt (connection : Connection) (stage : CloseStage) : Prop where
  server : connection.mServer = true
  disconnected : connection.disconnected = if stage = .clears then 1 else 0
  closed : connection.closed = 0

/-- What the records say after a statement of the only closing call. -/
def Connection.After (connection : Connection) : Closing → Prop
  | .stage stage => connection.ClosesAt stage
  | .returned => connection.disconnected = 1
  | .crashed => False

theorem Connection.Open.closesAt {connection : Connection} (isOpen : connection.Open) :
    connection.ClosesAt .interrupts :=
  ⟨isOpen.server, isOpen.disconnected, isOpen.closed⟩

theorem Connection.After.once {connection : Connection} {closing : Closing}
    (after : connection.After closing) : connection.disconnected ≤ 1 ∧
      (connection.closed ≠ 0 → connection.disconnected = 1) := by
  cases closing with
  | stage stage =>
      refine ⟨?_, fun closed => absurd after.closed closed⟩
      rw [after.disconnected]
      split
      · exact Nat.le_refl 1
      · exact Nat.zero_le 1
  | returned => exact ⟨Nat.le_of_eq after, fun _ => after⟩
  | crashed => exact after.elim

/-- A statement of the only closing call of a connection that is not listed changes the
records of this connection alone. -/
theorem closeNext_eq {stage : CloseStage} {closing : Closing}
    (closes : (server.connections index).ClosesAt stage) (removed : index ∉ server.mConnections)
    (taken : server.closeNext index stage = some (server', closing)) :
    ∃ change : Connection → Connection, server' = server.modify index change ∧
      (change (server.connections index)).run = (server.connections index).run ∧
      (change (server.connections index)).After closing := by
  cases stage with
  | interrupts =>
      cases taken
      exact ⟨_, rfl, rfl, closes.server, closes.disconnected, closes.closed⟩
  | joins =>
      rw [closeNext] at taken
      split at taken
      · cases taken
        refine ⟨id, ?_, rfl, closes.server, closes.disconnected, closes.closed⟩
        rw [modify, id, Function.update_eq_self]
      · cases taken
  | removes =>
      rw [closeNext, if_pos closes.server] at taken
      cases taken
      refine ⟨id, ?_, rfl, closes.server, closes.disconnected, closes.closed⟩
      rw [modify, id, Function.update_eq_self, remove, List.erase_of_not_mem removed]
  | reports =>
      rw [closeNext, if_pos closes.server] at taken
      cases taken
      refine ⟨_, rfl, rfl, closes.server, ?_, closes.closed⟩
      change (server.connections index).disconnected + 1 = 1
      rw [closes.disconnected]
      rfl
  | clears =>
      cases taken
      exact ⟨_, rfl, rfl, closes.disconnected⟩

/-! ## What holds while no connection fails -/

/-- The thread of a connection does not close the connection. -/
def Run.Serves (run : Run) : Prop :=
  ∀ stage, run ≠ .closes stage

/-- The thread `mThread` is busy with no connection. -/
structure Acceptor.Idle (acceptor : Acceptor) : Prop where
  adds : ∀ index, acceptor ≠ .adds index
  closes : ∀ index stage, acceptor ≠ .closes index stage

def Shutdown.Idle (shutdown : Shutdown) : Prop :=
  ∀ index stage itr, shutdown ≠ .closes index stage itr

structure Sound (server : AbstractServer) : Prop where
  serves : ∀ index, (server.connections index).run.Serves
  started : ∀ index, (server.connections index).run ≠ .unstarted → index < server.created
  distinct : server.mConnections.Nodup
  listed : ∀ index ∈ server.mConnections, (server.connections index).Open ∧
    (server.connections index).run ≠ .unstarted
  once : ∀ index, (server.connections index).disconnected ≤ 1 ∧
    ((server.connections index).closed ≠ 0 → (server.connections index).disconnected = 1)
  adds : ∀ index, server.acceptor = .adds index → (server.connections index).Open ∧
    (server.connections index).run ≠ .unstarted ∧ index ∉ server.mConnections ∧
    ∀ stage itr, server.shutdown ≠ .closes index stage itr
  setsUp : ∀ index stage, server.acceptor = .closes index stage →
    (server.connections index).ClosesAt stage ∧ (server.connections index).run = .unstarted
  shutsDown : ∀ index stage itr, server.shutdown = .closes index stage itr →
    (server.connections index).ClosesAt stage ∧ (server.connections index).run ≠ .unstarted ∧
    index ∉ server.mConnections

namespace Sound

theorem initial (starts : server.Initial) : server.Sound where
  serves index := by
    rw [starts.fresh]
    exact nofun
  started index isStarted := by
    rw [starts.fresh] at isStarted
    exact absurd rfl isStarted
  distinct := by
    rw [starts.connections]
    exact List.nodup_nil
  listed index member := by
    rw [starts.connections] at member
    cases member
  once index := by
    rw [starts.fresh]
    exact ⟨Nat.zero_le 1, fun closed => absurd rfl closed⟩
  adds index busy := by
    rcases starts.acceptor with idle | idle <;> rw [idle] at busy <;> cases busy
  setsUp index stage busy := by
    rcases starts.acceptor with idle | idle <;> rw [idle] at busy <;> cases busy
  shutsDown index stage itr busy := by
    rw [starts.shutdown] at busy
    cases busy

/-- A thread goes on without a change of the connections. -/
theorem advance (sound : server.Sound) (connections : server'.connections = server.connections)
    (mConnections : server'.mConnections = server.mConnections)
    (created : server'.created = server.created)
    (acceptor : server'.acceptor = server.acceptor ∨ server'.acceptor.Idle)
    (shutdown : server'.shutdown = server.shutdown ∨ server'.shutdown.Idle) :
    server'.Sound where
  serves := by
    rw [connections]
    exact sound.serves
  started := by
    rw [connections, created]
    exact sound.started
  distinct := by
    rw [mConnections]
    exact sound.distinct
  listed := by
    rw [connections, mConnections]
    exact sound.listed
  once := by
    rw [connections]
    exact sound.once
  adds index busy := by
    rcases acceptor with same | idle
    · rcases sound.adds index (same ▸ busy) with ⟨isOpen, isStarted, removed, apart⟩
      rw [connections, mConnections]
      refine ⟨isOpen, isStarted, removed, ?_⟩
      intro stage itr closes
      rcases shutdown with sameShutdown | idle
      · exact apart stage itr (sameShutdown ▸ closes)
      · exact idle index stage itr closes
    · exact absurd busy (idle.adds index)
  setsUp index stage busy := by
    rcases acceptor with same | idle
    · rw [connections]
      exact sound.setsUp index stage (same ▸ busy)
    · exact absurd busy (idle.closes index stage)
  shutsDown index stage itr busy := by
    rcases shutdown with same | idle
    · rw [connections, mConnections]
      exact sound.shutsDown index stage itr (same ▸ busy)
    · exact absurd busy (idle index stage itr)

/-- A connection goes on in its loop. -/
theorem setRun {run : Run} (sound : server.Sound)
    (isStarted : (server.connections index).run ≠ .unstarted) (serves : run.Serves)
    (runs : run ≠ .unstarted) : (server.setRun index run).Sound := by
  have same : ∀ other, ((server.setRun index run).connections other).mServer =
      (server.connections other).mServer ∧
      ((server.setRun index run).connections other).disconnected =
        (server.connections other).disconnected ∧
      ((server.setRun index run).connections other).closed =
        (server.connections other).closed ∧
      (((server.setRun index run).connections other).run ≠ .unstarted ↔
        (server.connections other).run ≠ .unstarted) ∧
      ((server.setRun index run).connections other).run.Serves := by
    intro other
    by_cases isIndex : other = index
    · subst isIndex
      rw [AbstractServer.setRun, connections_modify_self]
      exact ⟨rfl, rfl, rfl, ⟨fun _ => isStarted, fun _ => runs⟩, serves⟩
    · rw [AbstractServer.setRun, connections_modify_of_ne isIndex]
      exact ⟨rfl, rfl, rfl, Iff.rfl, sound.serves other⟩
  have isOpen : ∀ other, (server.connections other).Open →
      ((server.setRun index run).connections other).Open := by
    intro other ⟨isServed, unreported, unclosed⟩
    rcases same other with ⟨mServer, disconnected, closed, _⟩
    exact ⟨mServer ▸ isServed, disconnected ▸ unreported, closed ▸ unclosed⟩
  have closesAt : ∀ other stage, (server.connections other).ClosesAt stage →
      ((server.setRun index run).connections other).ClosesAt stage := by
    intro other stage ⟨isServed, reported, unclosed⟩
    rcases same other with ⟨mServer, disconnected, closed, _⟩
    exact ⟨mServer ▸ isServed, disconnected ▸ reported, closed ▸ unclosed⟩
  exact {
    serves := fun other => (same other).2.2.2.2
    started := fun other runs => sound.started other ((same other).2.2.2.1.mp runs)
    distinct := sound.distinct
    listed := by
      intro other member
      rcases sound.listed other member with ⟨wasOpen, wasStarted⟩
      exact ⟨isOpen other wasOpen, (same other).2.2.2.1.mpr wasStarted⟩
    once := by
      intro other
      rw [(same other).2.1, (same other).2.2.1]
      exact sound.once other
    adds := by
      intro other busy
      rcases sound.adds other busy with ⟨wasOpen, wasStarted, removed⟩
      exact ⟨isOpen other wasOpen, (same other).2.2.2.1.mpr wasStarted, removed⟩
    setsUp := by
      intro other stage busy
      rcases sound.setsUp other stage busy with ⟨closes, unstarted⟩
      refine ⟨closesAt other stage closes, ?_⟩
      by_contra wasStarted
      exact (same other).2.2.2.1.mp wasStarted unstarted
    shutsDown := by
      intro other stage itr busy
      rcases sound.shutsDown other stage itr busy with ⟨closes, wasStarted, removed⟩
      exact ⟨closesAt other stage closes, (same other).2.2.2.1.mpr wasStarted, removed⟩ }

/-- A statement of the only closing call of a connection that is not listed, by the thread
`mThread` or by the one that shuts the server down. -/
theorem close {change : Connection → Connection} {closing : Closing} {acceptor : Acceptor}
    {shutdown : Shutdown} (sound : server.Sound) (removed : index ∉ server.mConnections)
    (keeps : (change (server.connections index)).run = (server.connections index).run)
    (after : (change (server.connections index)).After closing)
    (adds : ∀ other, acceptor = .adds other → other ≠ index ∧
      server.acceptor = .adds other ∧ ∀ stage itr, shutdown ≠ .closes other stage itr)
    (setsUp : ∀ other stage, acceptor = .closes other stage →
      other ≠ index ∧ server.acceptor = .closes other stage ∨
        other = index ∧ (change (server.connections index)).ClosesAt stage ∧
          (server.connections index).run = .unstarted)
    (shutsDown : ∀ other stage itr, shutdown = .closes other stage itr →
      other ≠ index ∧ server.shutdown = .closes other stage itr ∨
        other = index ∧ (change (server.connections index)).ClosesAt stage ∧
          (server.connections index).run ≠ .unstarted) :
    Sound { server.modify index change with acceptor := acceptor, shutdown := shutdown } := by
  have run : ∀ other, ((server.modify index change).connections other).run =
      (server.connections other).run := by
    intro other
    by_cases isIndex : other = index
    · rw [isIndex, connections_modify_self, keeps]
    · rw [connections_modify_of_ne isIndex]
  exact {
    serves := by
      intro other
      rw [run]
      exact sound.serves other
    started := by
      intro other
      rw [run]
      exact sound.started other
    distinct := sound.distinct
    listed := by
      intro other member
      rw [run]
      have isOther : other ≠ index := fun isIndex => removed (isIndex ▸ member)
      rw [connections_modify_of_ne isOther]
      exact sound.listed other member
    once := by
      intro other
      by_cases isIndex : other = index
      · rw [isIndex, connections_modify_self]
        exact after.once
      · rw [connections_modify_of_ne isIndex]
        exact sound.once other
    adds := by
      intro other busy
      rcases adds other busy with ⟨isOther, wasBusy, apart⟩
      rcases sound.adds other wasBusy with ⟨isOpen, isStarted, unlisted, _⟩
      rw [connections_modify_of_ne isOther]
      exact ⟨isOpen, isStarted, unlisted, apart⟩
    setsUp := by
      intro other stage busy
      rw [run]
      rcases setsUp other stage busy with ⟨isOther, wasBusy⟩ | ⟨rfl, closes, unstarted⟩
      · rw [connections_modify_of_ne isOther]
        exact sound.setsUp other stage wasBusy
      · rw [connections_modify_self]
        exact ⟨closes, unstarted⟩
    shutsDown := by
      intro other stage itr busy
      rw [run]
      rcases shutsDown other stage itr busy with ⟨isOther, wasBusy⟩ | ⟨rfl, closes, isStarted⟩
      · rw [connections_modify_of_ne isOther]
        exact sound.shutsDown other stage itr wasBusy
      · rw [connections_modify_self]
        exact ⟨closes, isStarted, removed⟩ }

theorem stepAcceptor (sound : server.Sound) (taken : server.stepAcceptor = some server') :
    server'.Sound := by
  rw [AbstractServer.stepAcceptor] at taken
  split at taken
  case h_1 _ =>
    cases taken
    refine sound.advance rfl rfl rfl (.inr ?_) (.inl rfl)
    cases server.mInterrupted <;> exact ⟨nofun, nofun⟩
  case h_2 index stage busy =>
    rcases sound.setsUp index stage busy with ⟨closes, unstarted⟩
    have removed : index ∉ server.mConnections :=
      fun member => (sound.listed index member).2 unstarted
    have apart : ∀ other stage itr, server.shutdown = .closes other stage itr →
        other ≠ index ∧ server.shutdown = .closes other stage itr := by
      intro other stage itr shuts
      refine ⟨?_, shuts⟩
      rintro rfl
      exact (sound.shutsDown other stage itr shuts).2.1 unstarted
    cases next : server.closeNext index stage with
    | none =>
        rw [next] at taken
        cases taken
    | some found =>
        rcases found with ⟨after, closing⟩
        rcases closeNext_eq closes removed next with ⟨change, rfl, keeps, stands⟩
        rw [next] at taken
        cases closing with
        | stage stage' =>
            cases taken
            refine sound.close removed keeps stands nofun ?_ ?_
            · rintro other stage ⟨⟩
              exact .inr ⟨rfl, stands, unstarted⟩
            · exact fun other stage itr shuts => .inl (apart other stage itr shuts)
        | returned =>
            cases taken
            refine sound.close removed keeps stands nofun nofun ?_
            exact fun other stage itr shuts => .inl (apart other stage itr shuts)
        | crashed => exact stands.elim
  case h_3 => cases taken

theorem stepShutdown (sound : server.Sound) (taken : server.stepShutdown = some server') :
    server'.Sound := by
  rw [AbstractServer.stepShutdown] at taken
  have idle : ∀ {after : AbstractServer}, after.connections = server.connections →
      after.mConnections = server.mConnections → after.created = server.created →
      after.acceptor = server.acceptor → after.shutdown.Idle → after.Sound :=
    fun connections listed created acceptor idle =>
      sound.advance connections listed created (.inl acceptor) (.inr idle)
  split at taken
  case h_1 => cases taken; exact idle rfl rfl rfl rfl nofun
  case h_2 => cases taken; exact idle rfl rfl rfl rfl nofun
  case h_3 => cases taken; exact idle rfl rfl rfl rfl nofun
  case h_4 => cases taken; exact idle rfl rfl rfl rfl nofun
  case h_5 =>
    cases taken
    refine idle rfl rfl rfl rfl ?_
    dsimp only
    split <;> exact nofun
  case h_6 index _ =>
    split at taken
    case isTrue member =>
      cases taken
      rcases sound.listed index member with ⟨isOpen, isStarted⟩
      have removed : index ∉ server.mConnections.erase index :=
        sound.distinct.not_mem_erase
      exact {
        serves := sound.serves
        started := sound.started
        distinct := sound.distinct.erase index
        listed := fun other isLeft => sound.listed other (List.mem_of_mem_erase isLeft)
        once := sound.once
        adds := by
          intro other busy
          rcases sound.adds other busy with ⟨wasOpen, wasStarted, unlisted, _⟩
          refine ⟨wasOpen, wasStarted, fun isLeft => unlisted (List.mem_of_mem_erase isLeft), ?_⟩
          rintro stage itr ⟨⟩
          exact unlisted member
        setsUp := sound.setsUp
        shutsDown := by
          rintro other stage itr ⟨⟩
          exact ⟨isOpen.closesAt, isStarted, removed⟩ }
    case isFalse =>
      cases taken
      exact idle rfl rfl rfl rfl nofun
  case h_7 index stage itr busy =>
    rcases sound.shutsDown index stage itr busy with ⟨closes, isStarted, removed⟩
    have apart : ∀ other, server.acceptor = .adds other → other ≠ index := by
      rintro other adds rfl
      exact (sound.adds other adds).2.2.2 stage itr busy
    have setsUp : ∀ other stage, server.acceptor = .closes other stage →
        other ≠ index ∧ server.acceptor = .closes other stage := by
      intro other stage setsUp
      refine ⟨?_, setsUp⟩
      rintro rfl
      exact isStarted (sound.setsUp other stage setsUp).2
    cases next : server.closeNext index stage with
    | none =>
        rw [next] at taken
        cases taken
    | some found =>
        rcases found with ⟨after, closing⟩
        rcases closeNext_eq closes removed next with ⟨change, rfl, keeps, stands⟩
        rw [next] at taken
        cases closing with
        | stage stage' =>
            cases taken
            refine sound.close removed keeps stands ?_ ?_ ?_
            · intro other adds
              refine ⟨apart other adds, adds, ?_⟩
              rintro stage itr ⟨⟩
              exact apart index adds rfl
            · exact fun other stage closes => .inl (setsUp other stage closes)
            · rintro other stage itr ⟨⟩
              exact .inr ⟨rfl, stands, isStarted⟩
        | returned =>
            cases taken
            refine sound.close removed keeps stands ?_ ?_ ?_
            · exact fun other adds => ⟨apart other adds, adds, nofun⟩
            · exact fun other stage closes => .inl (setsUp other stage closes)
            · exact nofun
        | crashed => exact stands.elim
  case h_8 =>
    split at taken <;> cases taken <;> exact idle rfl rfl rfl rfl nofun
  case h_9 =>
    split at taken <;> cases taken
    exact idle rfl rfl rfl rfl nofun
  case h_10 => cases taken
  case h_11 => cases taken

/-- The index of a new connection has not been used. -/
theorem accept {streams : Bool} (sound : server.Sound)
    (taken : server.accept streams = some server') : server'.Sound := by
  have isNew : ∀ other, (server.connections other).run ≠ .unstarted →
      other ≠ server.created := by
    intro other isStarted
    exact Nat.ne_of_lt (sound.started other isStarted)
  have unlisted : server.created ∉ server.mConnections := by
    intro member
    exact isNew server.created (sound.listed server.created member).2 rfl
  have unclosed : ∀ stage itr, server.shutdown ≠ .closes server.created stage itr := by
    intro stage itr busy
    exact isNew server.created (sound.shutsDown server.created stage itr busy).2.1 rfl
  -- What the new record has to satisfy, with streams or without.
  have record : ∀ (connection : Connection) (acceptor : Acceptor), connection.Open →
      connection.run.Serves →
      (∀ other, acceptor = .adds other → other = server.created ∧ connection.run ≠ .unstarted) →
      (∀ other stage, acceptor = .closes other stage →
        other = server.created ∧ stage = .interrupts ∧ connection.run = .unstarted) →
      Sound { server.modify server.created fun _ => connection with
        created := server.created + 1
        acceptor := acceptor } := by
    intro connection acceptor isOpen serves adds setsUp
    exact {
      serves := by
        intro other
        by_cases isCreated : other = server.created
        · rw [isCreated, connections_modify_self]
          exact serves
        · rw [connections_modify_of_ne isCreated]
          exact sound.serves other
      started := by
        intro other isStarted
        by_cases isCreated : other = server.created
        · rw [isCreated]
          exact Nat.lt_succ_self _
        · rw [connections_modify_of_ne isCreated] at isStarted
          exact Nat.lt_succ_of_lt (sound.started other isStarted)
      distinct := sound.distinct
      listed := by
        intro other member
        have isOther : other ≠ server.created := fun isCreated => unlisted (isCreated ▸ member)
        rw [connections_modify_of_ne isOther]
        exact sound.listed other member
      once := by
        intro other
        by_cases isCreated : other = server.created
        · rw [isCreated, connections_modify_self, isOpen.disconnected, isOpen.closed]
          exact ⟨Nat.zero_le 1, fun closed => absurd rfl closed⟩
        · rw [connections_modify_of_ne isCreated]
          exact sound.once other
      adds := by
        intro other busy
        rcases adds other busy with ⟨rfl, isStarted⟩
        rw [connections_modify_self]
        exact ⟨isOpen, isStarted, unlisted, unclosed⟩
      setsUp := by
        intro other stage busy
        rcases setsUp other stage busy with ⟨rfl, rfl, unstarted⟩
        rw [connections_modify_self]
        exact ⟨isOpen.closesAt, unstarted⟩
      shutsDown := by
        intro other stage itr busy
        have isOther : other ≠ server.created :=
          fun isCreated => unclosed stage itr (isCreated ▸ busy)
        rw [connections_modify_of_ne isOther]
        exact sound.shutsDown other stage itr busy }
  rw [AbstractServer.accept] at taken
  split at taken
  · cases streams with
    | true =>
        cases taken
        refine record { run := .checks } (.adds server.created) ⟨rfl, rfl, rfl⟩ nofun ?_ nofun
        rintro other ⟨⟩
        exact ⟨rfl, nofun⟩
    | false =>
        cases taken
        refine record {} (.closes server.created .interrupts) ⟨rfl, rfl, rfl⟩ nofun nofun ?_
        rintro other stage ⟨⟩
        exact ⟨rfl, rfl, rfl⟩
  · cases taken

theorem mem_add {position other : Nat} (member : other ∈ (server.add index position).mConnections) :
    other = index ∨ other ∈ server.mConnections := by
  rw [AbstractServer.add] at member
  split at member
  · exact .inr member
  · rcases List.mem_append.mp member with before | behind
    · exact .inr (List.mem_of_mem_take before)
    · rcases List.mem_cons.mp behind with isIndex | behind
      · exact .inl isIndex
      · exact .inr (List.mem_of_mem_drop behind)

theorem add {position : Nat} (sound : server.Sound) (busy : server.acceptor = .adds index) :
    Sound { server.add index position with acceptor := .checks } := by
  rcases sound.adds index busy with ⟨isOpen, isStarted, unlisted, apart⟩
  have added : server.add index position =
      { server with
        mConnections :=
          server.mConnections.take position ++ index :: server.mConnections.drop position } :=
    if_neg unlisted
  have distinct : (server.add index position).mConnections.Nodup := by
    rw [added, List.perm_middle.nodup_iff, List.take_append_drop]
    exact List.nodup_cons.mpr ⟨unlisted, sound.distinct⟩
  have connections : (server.add index position).connections = server.connections := by
    rw [added]
  have created : (server.add index position).created = server.created := by
    rw [added]
  have shutdown : (server.add index position).shutdown = server.shutdown := by
    rw [added]
  exact {
    serves := by
      rw [connections]
      exact sound.serves
    started := by
      rw [connections, created]
      exact sound.started
    distinct := distinct
    listed := by
      intro other member
      rw [connections]
      rcases mem_add member with rfl | wasMember
      · exact ⟨isOpen, isStarted⟩
      · exact sound.listed other wasMember
    once := by
      rw [connections]
      exact sound.once
    adds := nofun
    setsUp := nofun
    shutsDown := by
      intro other stage itr closes
      rw [shutdown] at closes
      rcases sound.shutsDown other stage itr closes with ⟨closesAt, wasStarted, removed⟩
      rw [connections]
      refine ⟨closesAt, wasStarted, ?_⟩
      intro member
      rcases mem_add member with rfl | wasMember
      · exact apart stage itr closes
      · exact removed wasMember }

theorem stepConnection (sound : server.Sound)
    (taken : server.stepConnection index = some server') : server'.Sound := by
  rw [AbstractServer.stepConnection] at taken
  split at taken
  case h_1 checks =>
    have isStarted : (server.connections index).run ≠ .unstarted := by
      rw [checks]
      exact nofun
    split at taken
    · cases taken
      exact sound.setRun isStarted nofun nofun
    · split at taken <;> cases taken <;> exact sound.setRun isStarted nofun nofun
  case h_2 stage closes => exact absurd closes (sound.serves index stage)
  case h_3 => cases taken

theorem step_of_stepServing {action : Action}
    (taken : server.stepServing action = some server') :
    server.step action = some server' ∧ ∀ index, action ≠ .throws index := by
  cases action with
  | throws index => cases taken
  | next | accepts | refuses | adds | transacts => exact ⟨taken, nofun⟩

/-- Every step in which no connection fails. -/
theorem stepServing {action : Action} (sound : server.Sound)
    (serving : server.stepServing action = some server') : server'.Sound := by
  rcases step_of_stepServing serving with ⟨taken, unfailing⟩
  cases action with
  | next thread =>
      cases thread with
      | acceptor => exact sound.stepAcceptor taken
      | shutdown => exact sound.stepShutdown taken
      | connection index => exact sound.stepConnection taken
  | accepts streams => exact sound.accept taken
  | refuses =>
      rw [step] at taken
      split at taken <;> cases taken
      exact sound.advance rfl rfl rfl (.inr ⟨nofun, nofun⟩) (.inl rfl)
  | adds position =>
      rw [step] at taken
      split at taken
      case h_1 index busy =>
        cases taken
        exact sound.add busy
      case h_2 => cases taken
  | transacts index =>
      rw [step] at taken
      split at taken
      case isTrue transacts =>
        cases taken
        refine sound.setRun ?_ nofun nofun
        rw [transacts]
        exact nofun
      case isFalse => cases taken
  | throws index => exact absurd rfl (unfailing index)

/-- The thread that shuts the server down waits for the others, the thread `mThread` waits
for connections only. -/
def rank : ThreadId → Nat
  | .shutdown => 2
  | .acceptor => 1
  | .connection _ => 0

theorem rank_lt (sound : server.Sound) {thread thread' : ThreadId}
    (waits : server.WaitsFor thread thread') : rank thread' < rank thread := by
  cases waits with
  | setUp => exact Nat.zero_lt_one
  | shutDown => exact Nat.zero_lt_two
  | acceptor => exact Nat.one_lt_two
  | failed joins => exact absurd joins (sound.serves _ .joins)

theorem rank_lt_of_transGen (sound : server.Sound) {thread thread' : ThreadId}
    (path : Relation.TransGen server.WaitsFor thread thread') : rank thread' < rank thread := by
  induction path with
  | single waits => exact sound.rank_lt waits
  | tail _ waits ih => exact Nat.lt_trans (sound.rank_lt waits) ih

theorem waitsEnd (sound : server.Sound) : server.WaitsEnd := by
  intro thread cycle
  exact Nat.lt_irrefl _ (sound.rank_lt_of_transGen cycle)

theorem closedOnce (sound : server.Sound) : server.ClosedOnce := by
  intro index
  rcases sound.once index with ⟨once, reported⟩
  refine ⟨once, fun closed => ⟨?_, reported closed⟩⟩
  intro member
  exact closed (sound.listed index member).1.closed

end Sound

/-! ## All runs -/

/-- The thread of a connection whose `onTransact` throws waits for itself two statements
later. -/
theorem waitsFor_of_throws (taken : server.step (.throws index) = some server') :
    ∃ server'', server'.step (.next (.connection index)) = some server'' ∧
      server''.WaitsFor (.connection index) (.connection index) := by
  rw [step] at taken
  split at taken
  · cases taken
    refine ⟨((server.setRun index (.closes .interrupts)).modify index fun connection =>
      { connection with mInterrupted := true }).setRun index (.closes .joins), ?_, .failed ?_⟩
    · rw [step, stepConnection]
      simp only [setRun, connections_modify_self]
      rfl
    · simp only [setRun, connections_modify_self]
  · cases taken

/-- While no connection fails no thread waits for itself and closing calls end with exactly
one report, and the first failure makes a thread wait for itself. -/
theorem serves_until_failure
    (reachable : Reachable Initial
      (fun server server' => ∃ action, stepServing server action = some server') server) :
    server.WaitsEnd ∧ server.ClosedOnce ∧
      ∀ index failed, server.step (.throws index) = some failed →
        ∃ joining, failed.step (.next (.connection index)) = some joining ∧
          ¬joining.WaitsEnd := by
  have sound : server.Sound := by
    apply reachable.invariant
    · exact fun _ starts => Sound.initial starts
    · rintro before after _ sound ⟨action, taken⟩
      exact sound.stepServing taken
  refine ⟨sound.waitsEnd, sound.closedOnce, ?_⟩
  intro index failed throws
  rcases waitsFor_of_throws throws with ⟨joining, taken, waits⟩
  exact ⟨joining, taken, fun ends => ends (.connection index) (.single waits)⟩

/-- A server that has just been started. -/
def started : AbstractServer where
  mIsBound := true
  mInterrupted := false
  mConnections := []
  connections _ := {}
  created := 0
  acceptor := .checks
  shutdown := .uncalled

theorem initial_started : started.Initial :=
  ⟨rfl, rfl, rfl, fun _ => rfl, .inr rfl, rfl⟩

/-- A connection is set up, and the server is shut down while the connection is in its
loop. -/
def shutDownActions : List Action :=
  [.next .acceptor, .accepts true, .adds 0, .next (.connection 0), .next .acceptor] ++
    List.replicate 6 (.next .shutdown) ++ [.transacts 0, .next (.connection 0)] ++
    List.replicate 6 (.next .shutdown) ++ [.refuses, .next .acceptor, .next .shutdown]

/-- The shutdown returns, with its connection closed and reported. -/
theorem serves_shutDown : ∃ server, runAll stepServing started shutDownActions = some server ∧
    server.shutdown = .returned ∧ (server.connections 0).closed = 1 ∧
    server.WaitsEnd ∧ server.ClosedOnce := by
  refine ⟨_, rfl, rfl, rfl, ?_⟩
  have runs : runAll stepServing started shutDownActions = some _ := rfl
  have serves := serves_until_failure (Reachable.runAll (.initial initial_started) runs)
  exact ⟨serves.1, serves.2.1⟩

/-- The only connection fails, before or after the server is shut down. -/
def failureActions : List Action :=
  [.next .acceptor, .accepts true, .adds 0, .next (.connection 0), .throws 0,
    .next (.connection 0)]

/-- The connection waits for itself, so its call of `close` never reports it. -/
theorem failure_waits : ∃ server, runAll step started failureActions = some server ∧
    server.WaitsFor (.connection 0) (.connection 0) ∧ ¬server.WaitsEnd ∧
    Reachable Initial (fun server server' => ∃ action, step server action = some server')
      server := by
  refine ⟨_, rfl, .failed rfl, ?_, ?_⟩
  · exact fun ends => ends (.connection 0) (.single (.failed rfl))
  · have runs : runAll step started failureActions = some _ := rfl
    exact Reachable.runAll (.initial initial_started) runs

end AbstractServer

end Mindroid
