import Mindroid.Os.QueueRemoval

/-!
# When a removal loses messages

The first loop of a removal makes the successor it read before the continuation
ran the new head.  If that successor is removed as well, everything the
continuation put in front of it is dropped from the queue.  `Reentry.Loses`
describes exactly the queues and continuations for which this concerns a message
that is not to be removed.
-/

set_option autoImplicit false

namespace Mindroid

open Foundation QueueState

namespace Reentry

variable (reentry : Reentry) (origin : QueueState) (removes : MessageId → Bool)

/-- A sent message goes in front of a queued one. -/
def precedes (id pivot : MessageId) : Prop :=
  reentry.due origin id = 0 ∨ reentry.due origin id < reentry.due origin pivot

instance (id pivot : MessageId) : Decidable (reentry.precedes origin id pivot) :=
  inferInstanceAs (Decidable (_ ∨ _))

/-- The rest of the queue behind `pivot` after the continuation of `message`. -/
def restAfter (isDone : ObjectId → Bool) (message pivot : MessageId) (rest : List MessageId) :
    List MessageId :=
  insertAllDue (reentry.due origin)
    ((reentry.enqueuedBy origin isDone message).filter
      fun id => !decide (reentry.precedes origin id pivot)) rest

/-- Two neighbours at the front of the queue are both removed, and the
continuation of the first one sends a message in front of the second one that is
not to be removed; or this happens later in the run of removed messages at the
front. -/
inductive Loses : (ObjectId → Bool) → List MessageId → Prop where
  | here {isDone : ObjectId → Bool} {message pivot id : MessageId} {rest : List MessageId}
      (first : removes message = true) (second : removes pivot = true)
      (sent : id ∈ reentry.enqueuedBy origin isDone message)
      (early : reentry.precedes origin id pivot) (kept : removes id = false) :
      Loses isDone (message :: pivot :: rest)
  | later {isDone : ObjectId → Bool} {message pivot : MessageId} {rest : List MessageId}
      (first : removes message = true)
      (behind : Loses (doneAfter origin isDone message)
        (pivot :: reentry.restAfter origin isDone message pivot rest)) :
      Loses isDone (message :: pivot :: rest)

variable {reentry origin removes}

theorem Loses.head_removed {isDone : ObjectId → Bool} {message : MessageId}
    {rest : List MessageId} (loses : Loses reentry origin removes isDone (message :: rest)) :
    removes message = true := by
  cases loses with
  | here first => exact first
  | later first => exact first

theorem not_loses_singleton {isDone : ObjectId → Bool} {message : MessageId} :
    ¬Loses reentry origin removes isDone [message] := by
  intro loses
  cases loses

/-- One unfolding of `Loses` at a removed message. -/
theorem loses_cons_iff {isDone : ObjectId → Bool} {message pivot : MessageId}
    {rest : List MessageId} (first : removes message = true) :
    Loses reentry origin removes isDone (message :: pivot :: rest) ↔
      (removes pivot = true ∧ ∃ id ∈ reentry.enqueuedBy origin isDone message,
        reentry.precedes origin id pivot ∧ removes id = false) ∨
      Loses reentry origin removes (doneAfter origin isDone message)
        (pivot :: reentry.restAfter origin isDone message pivot rest) := by
  constructor
  · intro loses
    cases loses with
    | here _ second sent early kept => exact .inl ⟨second, _, sent, early, kept⟩
    | later _ behind => exact .inr behind
  · rintro (⟨second, id, sent, early, kept⟩ | behind)
    · exact .here first second sent early kept
    · exact .later first behind

/-- The queue around a pivot after the continuation has run. -/
theorem insertAll_around (isDone : ObjectId → Bool) (message : MessageId) {pivot : MessageId}
    {front rest : List MessageId}
    (ordered : DueOrdered (reentry.due origin) (front ++ pivot :: rest)) :
    insertAllDue (reentry.due origin) (reentry.enqueuedBy origin isDone message)
        (front ++ pivot :: rest) =
      insertAllDue (reentry.due origin)
          ((reentry.enqueuedBy origin isDone message).filter
            fun id => decide (reentry.precedes origin id pivot)) front ++
        pivot :: reentry.restAfter origin isDone message pivot rest :=
  insertAllDue_append_cons ordered

theorem length_restAfter (reentry : Reentry) (origin : QueueState) (isDone : ObjectId → Bool)
    (message pivot : MessageId) (rest : List MessageId) :
    (reentry.restAfter origin isDone message pivot rest).length ≤
      rest.length + (reentry.enqueuedBy origin isDone message).length := by
  rw [restAfter, length_insertAllDue]
  have bound := List.length_filter_le (fun id => !decide (reentry.precedes origin id pivot))
    (reentry.enqueuedBy origin isDone message)
  omega

theorem Running.ordered {st : QueueState} {nodes : List MessageId}
    (running : Running reentry origin st nodes) : DueOrdered (reentry.due origin) nodes := by
  apply List.Pairwise.imp_of_mem _ running.represents.ordered
  intro earlier later earlierMem laterMem order
  rwa [running.dueTime earlier earlierMem, running.dueTime later laterMem] at order

/-- The removal sees the fields the message had when the removal was called. -/
theorem Running.accepts_eq {st : QueueState} {nodes : List MessageId}
    (running : Running reentry origin st nodes) (removal : Removal) (message : MessageId)
    (member : message ∈ nodes) :
    removal.accepts (st.store.messages message) =
      removal.accepts (origin.store.messages message) := by
  have same := running.payload message member
  exact removal.accepts_congr ⟨same.target, same.what, same.obj, same.callback, same.result⟩

end Reentry

/-- What a removal loop started at a queue leaves behind. -/
structure LoopResult (reentry : Reentry) (origin st : QueueState) (nodes : List MessageId)
    (st' : QueueState) (nodes' : List MessageId) : Prop where
  running : Reentry.Running reentry origin st' nodes'
  follows : Follows st nodes st' nodes'
  allocated : st'.store.allocated = st.store.allocated

namespace LoopResult

variable {reentry : Reentry} {origin st st' st'' : QueueState}
  {nodes nodes' nodes'' : List MessageId} {message : MessageId}

theorem refl (running : Reentry.Running reentry origin st nodes) :
    LoopResult reentry origin st nodes st nodes :=
  ⟨running, Follows.refl st nodes, rfl⟩

theorem trans (first : LoopResult reentry origin st nodes st' nodes')
    (second : LoopResult reentry origin st' nodes' st'' nodes'') :
    LoopResult reentry origin st nodes st'' nodes'' :=
  ⟨second.running, first.follows.trans second.follows, second.allocated.trans first.allocated⟩

/-- One removed message, then the rest of the loop. -/
theorem step (recycled : Reentry.Recycled reentry origin st st' nodes' message)
    (kept : ∀ id ∈ nodes', id ∈ nodes)
    (rest : LoopResult reentry origin st' (insertAllDue (reentry.due origin)
      (reentry.enqueuedBy origin st.store.isDone message) nodes') st'' nodes'') :
    LoopResult reentry origin st nodes st'' nodes'' :=
  ⟨rest.running, (recycled.follows kept).trans rest.follows,
    rest.allocated.trans recycled.allocated⟩

end LoopResult

section Loops

variable {reentry : Reentry} {origin : QueueState} (removal : Removal)

/-- What the removal removes. -/
def Removal.removes (removal : Removal) (origin : QueueState) (id : MessageId) : Bool :=
  removal.accepts (origin.store.messages id)

theorem sublist_without_middle (front : List MessageId) (cur next : MessageId)
    (rest : List MessageId) :
    (front ++ cur :: rest).Sublist (front ++ cur :: next :: rest) :=
  ((List.sublist_cons_self next rest).cons_cons cur).append_left front

theorem not_mem_without_middle {front rest : List MessageId} {cur next : MessageId}
    (nodup : (front ++ cur :: next :: rest).Nodup) : next ∉ front ++ cur :: rest := by
  have moved : (next :: (front ++ cur :: rest)).Nodup := by
    apply (List.Perm.nodup_iff _).mp nodup
    have regroup : front ++ cur :: next :: rest = (front ++ [cur]) ++ next :: rest := by simp
    have regroup' : front ++ cur :: rest = (front ++ [cur]) ++ rest := by simp
    rw [regroup, regroup']
    exact List.perm_middle
  exact (List.nodup_cons.mp moved).1

/-- The second loop reads its links after the continuations have run and loses
nothing. -/
theorem removeRest_spec (prepared : reentry.Prepared origin) {fuel : Nat} {st : QueueState}
    {front rest : List MessageId} {cur : MessageId} (found : Bool)
    (running : Reentry.Running reentry origin st (front ++ cur :: rest))
    (enough : rest.length + st.unused.card + 2 ≤ fuel) :
    ∃ st' found' nodes', removeRest reentry.onCancel removal.accepts fuel st (some cur) found =
        .ok (st', found') ∧
      LoopResult reentry origin st (front ++ cur :: rest) st' nodes' ∧
      KeepsOthers (removal.removes origin) st (front ++ cur :: rest) st' nodes' := by
  induction fuel generalizing st front rest cur found with
  | zero => omega
  | succ fuel ih =>
      have nextEq : (st.store.messages cur).nextMessage = rest.head? :=
        running.represents.linked.next_eq
      cases rest with
      | nil =>
          simp only [List.head?_nil] at nextEq
          refine ⟨st, found, front ++ [cur], ?_, LoopResult.refl running, KeepsOthers.refl st _⟩
          cases fuel with
          | zero => omega
          | succ fuel => simp [removeRest, nextEq]
      | cons next rest =>
          simp only [List.head?_cons] at nextEq
          have accepted := running.accepts_eq removal next (by simp)
          cases matched : removal.accepts (origin.store.messages next) with
          | true =>
              have distinct := running.represents.nodup
              have recycled := running.removeOne prepared
                (unlinkAfter_relinks running.represents)
                (by
                  intro id member
                  simp only [List.mem_append, List.mem_cons] at member ⊢
                  tauto)
                (unlinkAfter_represents running.represents)
                (fun _ => (sublist_without_middle front cur next rest).mem) (by simp) (not_mem_without_middle distinct)
              have dropped : ∀ id ∈ front ++ cur :: next :: rest,
                  removal.removes origin id = false → id ∈ front ++ cur :: rest := by
                intro id member kept
                have notNext : id ≠ next := by
                  intro same
                  rw [same, Removal.removes, matched] at kept
                  exact absurd kept (by simp)
                simp only [List.mem_append, List.mem_cons] at member ⊢
                tauto
              have around := Reentry.insertAll_around st.store.isDone next
                (running.ordered.sublist (sublist_without_middle front cur next rest))
              have after := recycled.running
              rw [around] at after
              have shrinks := recycled.unused_card
              have bound := Reentry.length_restAfter reentry origin st.store.isDone next cur
                rest
              simp only [List.length_cons] at enough
              rcases ih true after (by omega) with
                ⟨st', found', nodes', returned, result, keeps⟩
              rw [← around] at result keeps
              refine ⟨st', found', nodes', ?_,
                LoopResult.step recycled
                  (fun _ => (sublist_without_middle front cur next rest).mem) result,
                (recycled.keepsOthers dropped).trans keeps⟩
              simpa [removeRest, nextEq, accepted, matched] using returned
          | false =>
              have regroup : front ++ cur :: next :: rest = (front ++ [cur]) ++ next :: rest := by
                simp
              rw [regroup] at running ⊢
              rcases ih found running (by simp at enough; omega) with
                ⟨st', found', nodes', returned, result, keeps⟩
              refine ⟨st', found', nodes', ?_, result, keeps⟩
              simpa [removeRest, nextEq, accepted, matched] using returned

/-- The first loop returns, and it loses a message exactly when something in front
of its cursor is dropped with a removed message, now or later. -/
theorem removeFront_spec (prepared : reentry.Prepared origin) {fuel : Nat} {st : QueueState}
    {front rest : List MessageId} {cur : MessageId} (found : Bool)
    (running : Reentry.Running reentry origin st (front ++ cur :: rest))
    (enough : rest.length + st.unused.card + 2 ≤ fuel) :
    ∃ st' cur' found' nodes', removeFront reentry.onCancel removal.accepts fuel st (some cur)
        found = .ok (st', cur', found') ∧
      LoopResult reentry origin st (front ++ cur :: rest) st' nodes' ∧
      (∀ id, cur' = some id → id ∈ nodes') ∧
      (KeepsOthers (removal.removes origin) st (front ++ cur :: rest) st' nodes' ↔
        (removal.removes origin cur = true → ∀ id ∈ front, removal.removes origin id = true) ∧
          ¬Reentry.Loses reentry origin (removal.removes origin) st.store.isDone
            (cur :: rest)) := by
  induction fuel generalizing st front rest cur found with
  | zero => omega
  | succ fuel ih =>
      have accepted : removal.accepts (st.store.messages cur) = removal.removes origin cur :=
        running.accepts_eq removal cur (by simp)
      cases matched : removal.removes origin cur with
      | false =>
          refine ⟨st, some cur, found, _, ?_, LoopResult.refl running, by simp, ?_⟩
          · simp [removeFront, accepted, matched]
          · refine ⟨fun _ => ⟨by simp, ?_⟩, fun _ => KeepsOthers.refl st _⟩
            intro loses
            rw [loses.head_removed] at matched
            exact absurd matched (by simp)
      | true =>
          have nextEq : (st.store.messages cur).nextMessage = rest.head? :=
            running.represents.linked.next_eq
          have split := List.nodup_append.mp running.represents.nodup
          have restOnly : ∀ id ∈ rest, id ∈ front ++ cur :: rest := by
            intro id member
            simp [member]
          have recycled := running.removeOne prepared (unlinkHead_relinks running.represents)
            restOnly (unlinkHead_represents running.represents) restOnly (by simp)
            (List.nodup_cons.mp split.2.1).1
          generalize afterEq : (st.unlinkHead (st.store.messages cur).nextMessage).recycle
            reentry.onCancel cur = after at recycled
          have returns : ∀ result, removeFront reentry.onCancel removal.accepts fuel after rest.head?
              true = .ok result →
              removeFront reentry.onCancel removal.accepts (fuel + 1) st (some cur) found =
                .ok result := by
            intro result returned
            rw [removeFront, accepted, if_pos matched, ← returned, ← afterEq, nextEq]
          have dropped (removed : ∀ id ∈ front, removal.removes origin id = true) :
              ∀ id ∈ front ++ cur :: rest, removal.removes origin id = false → id ∈ rest := by
            intro id member kept
            rcases List.mem_append.mp member with inFront | inRest
            · rw [removed id inFront] at kept
              exact absurd kept (by simp)
            · rcases List.mem_cons.mp inRest with same | inRest
              · rw [same, matched] at kept
                exact absurd kept (by simp)
              · exact inRest
          -- what stands in front of the cursor is gone for good
          have frontRemoved {st'' : QueueState} {nodes'' : List MessageId}
              (result : LoopResult reentry origin after (insertAllDue (reentry.due origin)
                (reentry.enqueuedBy origin st.store.isDone cur) rest) st'' nodes'')
              (keeps : KeepsOthers (removal.removes origin) st (front ++ cur :: rest) st'' nodes'') :
              ∀ id ∈ front, removal.removes origin id = true := by
            intro id inFront
            cases kept : removal.removes origin id with
            | true => rfl
            | false =>
                have marked := running.represents.inUse id (by simp [inFront])
                have back := keeps id kept (.inl (by simp [inFront]))
                refine absurd back (result.follows.absent_stays ?_ (recycled.marks id marked))
                intro member
                rcases recycled.mem.mp member with ⟨free, _⟩ | inRest
                · rw [inUse, marked] at free
                  exact absurd free (by simp)
                · exact split.2.2 id inFront id (by simp [inRest]) rfl
          cases rest with
          | nil =>
              have result := LoopResult.step recycled restOnly (LoopResult.refl recycled.running)
              refine ⟨after, none, true, _, returns _ ?_, result, by simp, ?_⟩
              · cases fuel with
                | zero => omega
                | succ fuel => rfl
              · constructor
                · intro keeps
                  exact ⟨fun _ => frontRemoved (LoopResult.refl recycled.running) keeps,
                    Reentry.not_loses_singleton⟩
                · rintro ⟨removed, _⟩
                  exact recycled.keepsOthers (dropped (removed rfl))
          | cons next rest =>
              have ordered : DueOrdered (reentry.due origin) ([] ++ next :: rest) :=
                running.ordered.sublist ((List.sublist_cons_self cur _).trans
                  (List.sublist_append_right front _))
              have around := Reentry.insertAll_around st.store.isDone cur ordered
              have runningAfter := recycled.running
              rw [← List.nil_append (next :: rest), around] at runningAfter
              have shrinks := recycled.unused_card
              have bound := Reentry.length_restAfter reentry origin st.store.isDone cur next rest
              simp only [List.length_cons] at enough
              rcases ih true runningAfter (by omega) with
                ⟨st', cur', found', nodes', returned, result, cursor, keepsIff⟩
              rw [← around] at result keepsIff
              refine ⟨st', cur', found', nodes', returns _ returned,
                LoopResult.step recycled restOnly result, cursor, ?_⟩
              have early : (removal.removes origin next = true →
                  ∀ id ∈ insertAllDue (reentry.due origin)
                    ((reentry.enqueuedBy origin st.store.isDone cur).filter
                      fun id => decide (reentry.precedes origin id next)) [],
                    removal.removes origin id = true) ↔
                  ¬(removal.removes origin next = true ∧
                    ∃ id ∈ reentry.enqueuedBy origin st.store.isDone cur,
                      reentry.precedes origin id next ∧ removal.removes origin id = false) := by
                simp only [mem_insertAllDue, List.mem_filter, decide_eq_true_eq, List.not_mem_nil,
                  or_false, not_and, not_exists, Bool.not_eq_false, and_imp]
              rw [recycled.isDone, early] at keepsIff
              rw [Reentry.loses_cons_iff matched, not_or, ← keepsIff]
              constructor
              · intro keeps
                refine ⟨fun _ => frontRemoved result keeps,
                  keeps.of_trans (recycled.follows restOnly) result.follows ?_⟩
                intro id member
                rcases recycled.mem.mp member with newly | inRest
                · exact .inr newly
                · exact .inl (restOnly id inRest)
              · rintro ⟨removed, keepsLater⟩
                exact (recycled.keepsOthers (dropped (removed rfl))).trans keepsLater

end Loops

/-- A removal either returns at once or runs its two loops. -/
theorem remove_eq (onCancel : OnCancel) (st : QueueState) (removal : Removal) :
    (st.remove onCancel removal = st.removeMatching onCancel removal.accepts) ∨
      (st.remove onCancel removal = .ok (st, false) ∧ ∀ message, removal.accepts message = false) := by
  cases removal with
  | messages handler what object =>
      cases handler with
      | none => exact .inr ⟨rfl, fun _ => rfl⟩
      | some handler => exact .inl rfl
  | callbacks handler runnable object =>
      cases handler with
      | none => exact .inr ⟨rfl, fun _ => rfl⟩
      | some handler =>
          cases runnable with
          | none => exact .inr ⟨rfl, fun _ => rfl⟩
          | some runnable => exact .inl rfl
  | callbacksAndMessages handler object =>
      cases handler with
      | none => exact .inr ⟨rfl, fun _ => rfl⟩
      | some handler => exact .inl rfl

section Removals

variable {reentry : Reentry} {st : QueueState} {nodes : List MessageId}

/-- At the call nothing has been sent yet. -/
theorem Reentry.Running.start (represents : Represents st nodes)
    (isOpen : st.queue.mQuitting = false) (prepared : reentry.Prepared st) :
    Running reentry st st nodes where
  represents := represents
  isOpen := isOpen
  payload _ _ := ⟨rfl, rfl, rfl, rfl, rfl⟩
  dueTime id member := by
    have marked : st.inUse id = true := represents.inUse id member
    rw [due, if_pos marked]
  waiting result open_ id member := by
    have ready := prepared.ready result open_ id member
    exact ⟨ready, ready.free, rfl⟩

/-- Both loops together. -/
theorem removeMatching_spec (represents : Represents st nodes)
    (isOpen : st.queue.mQuitting = false) (prepared : reentry.Prepared st) (removal : Removal) :
    ∃ st' found nodes', st.removeMatching reentry.onCancel removal.accepts = .ok (st', found) ∧
      LoopResult reentry st st nodes st' nodes' ∧
      (KeepsOthers (removal.removes st) st nodes st' nodes' ↔
        ¬Reentry.Loses reentry st (removal.removes st) st.store.isDone nodes) := by
  have running := Reentry.Running.start represents isOpen prepared
  have headEq := represents.linked.head_eq
  have bound := represents.length_add_unused
  cases nodes with
  | nil =>
      simp only [List.head?_nil] at headEq
      refine ⟨st, false, [], ?_, LoopResult.refl running, ?_⟩
      · simp [removeMatching, headEq, removeFront, removeRest]
      · constructor
        · intro _ loses
          cases loses
        · intro _
          exact KeepsOthers.refl st []
  | cons cur rest =>
      simp only [List.head?_cons] at headEq
      simp only [List.length_cons] at bound
      have running : Reentry.Running reentry st st ([] ++ cur :: rest) := running
      have enough : rest.length + st.unused.card + 2 ≤ st.store.allocated + 2 := by omega
      rcases removeFront_spec removal prepared false running enough with
        ⟨mid, cur', found, midNodes, returned, result, cursor, keepsIff⟩
      rw [← headEq] at returned
      simp only [List.not_mem_nil, false_imp_iff, implies_true, true_and] at keepsIff
      cases cur' with
      | none =>
          refine ⟨mid, found, midNodes, ?_, result, keepsIff⟩
          simp [removeMatching, returned, removeRest]
      | some cur' =>
          rcases List.append_of_mem (cursor cur' rfl) with ⟨left, right, split⟩
          subst split
          have bound := result.running.represents.length_add_unused
          simp only [List.length_append, List.length_cons] at bound
          have enough : right.length + mid.unused.card + 2 ≤ mid.store.allocated + 2 := by omega
          rcases removeRest_spec removal prepared found result.running enough with
            ⟨st', found', nodes', returned', result', keeps⟩
          refine ⟨st', found', nodes', ?_, result.trans result', ?_⟩
          · simp [removeMatching, returned, returned']
          · apply Iff.trans _ keepsIff
            constructor
            · intro whole
              exact whole.of_trans_left represents.inUse result.follows result'.follows
            · intro first
              exact first.trans keeps

/-- A removal on a queue in any reachable state keeps the queue well formed, and
it keeps every other message exactly when `Loses` does not hold. -/
theorem remove_spec (represents : Represents st nodes)
    (drained : st.queue.mQuitting = true → nodes = []) (prepared : reentry.Prepared st)
    (removal : Removal) :
    ∃ st' found nodes', st.remove reentry.onCancel removal = .ok (st', found) ∧
      Represents st' nodes' ∧ (st'.queue.mQuitting = true → nodes' = []) ∧
      Follows st nodes st' nodes' ∧
      (KeepsOthers (removal.removes st) st nodes st' nodes' ↔
        ¬Reentry.Loses reentry st (removal.removes st) st.store.isDone nodes) := by
  rcases remove_eq reentry.onCancel st removal with loops | ⟨returned, nothing⟩
  · cases quitting : st.queue.mQuitting with
    | false =>
        rcases removeMatching_spec represents quitting prepared removal with
          ⟨st', found, nodes', returned, result, keepsIff⟩
        refine ⟨st', found, nodes', loops.trans returned, result.running.represents, ?_,
          result.follows, keepsIff⟩
        intro quitting'
        rw [result.running.isOpen] at quitting'
        exact absurd quitting' (by simp)
    | true =>
        have empty := drained quitting
        subst empty
        have headEq := represents.linked.head_eq
        simp only [List.head?_nil] at headEq
        refine ⟨st, false, [], ?_, represents, fun _ => rfl, Follows.refl st [], ?_⟩
        · rw [loops]
          simp [removeMatching, headEq, removeFront, removeRest]
        · constructor
          · intro _ loses
            cases loses
          · intro _
            exact KeepsOthers.refl st []
  · refine ⟨st, false, nodes, returned, represents, drained, Follows.refl st nodes, ?_⟩
    constructor
    · intro _ loses
      cases loses with
      | here first => exact absurd first (by simp [Removal.removes, nothing])
      | later first => exact absurd first (by simp [Removal.removes, nothing])
    · intro _
      exact KeepsOthers.refl st nodes

/-- The removal returns, leaves a well-formed queue and loses no message that it
does not match: neither one queued before nor one enqueued by a continuation. -/
def KeepsUnmatched (reentry : Reentry) (st : QueueState) (nodes : List MessageId)
    (removal : Removal) : Prop :=
  ∃ st' found nodes', st.remove reentry.onCancel removal = .ok (st', found) ∧
    Represents st' nodes' ∧
    ∀ id, removal.accepts (st.store.messages id) = false →
      id ∈ nodes ∨ NewlyInUse st st' id → id ∈ nodes'

/-- Two queued messages 0 and 1 for handler 7, due at 5, of which the first one
carries a result, and a message 2 for the same handler that is not sent yet. -/
def twoQueued : QueueState where
  store :=
    { messages := fun id => match id with
        | 0 => { what := 1, target := some 7, when := 5, flags := flagInUse, result := some 9
                 nextMessage := some 1 }
        | 1 => { what := 1, target := some 7, when := 5, flags := flagInUse
                 prevMessage := some 0 }
        | _ => { what := 2, target := some 7 }
      allocated := 3 }
  queue := { mHeadMessage := some 0, mTailMessage := some 1 }

/-- The continuation of result 9 sends message 2 for the given time. -/
def sendsTwo (time : Nat) : Reentry where
  sends result := if result = 9 then [2] else []
  time _ := time

theorem twoQueued_represents : Represents twoQueued [0, 1] := by
  constructor
  · exact ⟨by simp [LinkPath, twoQueued, Store.next], by simp [LinkPath, twoQueued, Store.prev], by simp⟩
  · simp [DueOrdered, dueTime, Store.contents, twoQueued, Message.unlinked]
  · simp [twoQueued, Store.contents, Message.unlinked, Message.isInUse]
  · simp [twoQueued]

theorem sendsTwo_prepared (time : Nat) : (sendsTwo time).Prepared twoQueued := by
  constructor
  · intro result
    by_cases same : result = 9 <;> simp [sendsTwo, same]
  · intro left right distinct id member
    by_cases same : left = 9
    · have other : right ≠ 9 := fun same' => distinct (same.trans same'.symm)
      simp [sendsTwo, other]
    · simp [sendsTwo, same] at member
  · intro result _ id member
    by_cases same : result = 9
    · have isTwo : id = 2 := by simpa [sendsTwo, same] using member
      subst isTwo
      constructor <;> decide
    · simp [sendsTwo, same] at member

end Removals

end Mindroid
