import Mindroid.Util.Event

/-!
# Turns of delegates

The turn of a subscription comes when all those before it were called or are gone.  A dispatch
gives every subscription its turn, unless one is gone when its own call is over.
-/

set_option autoImplicit false

namespace Mindroid

open Foundation

namespace Event

variable {D : Type}

/-! ## What a dispatch is for -/

/-- The event between two turns, and the calls so far. -/
structure Turn (D : Type) where
  event : Event D
  called : List (Subscription D)

namespace Turn

def nodes (turn : Turn D) : List (Subscription D) :=
  turn.event.mEventHandlers.nodes

def nodeIds (turn : Turn D) : List NodeId :=
  turn.nodes.map Prod.fst

def isCalled (turn : Turn D) (node : Subscription D) : Bool :=
  decide (node.1 ∈ turn.called.map Prod.fst)

/-- The first subscription that was not called. -/
def upcoming (turn : Turn D) : Option (Subscription D) :=
  turn.nodes.find? fun node => !turn.isCalled node

variable [BEq D]

/-- The call of a subscription. -/
def call (behaviour : Behaviour D) (turn : Turn D) (node : Subscription D) : Turn D where
  event := (behaviour (turn.called ++ [node])).foldl act turn.event
  called := turn.called ++ [node]

def next (behaviour : Behaviour D) (turn : Turn D) : Turn D :=
  match turn.upcoming with
  | some node => turn.call behaviour node
  | none => turn

end Turn

section Spec

variable [BEq D]

def turnAt (behaviour : Behaviour D) (event : Event D) : Nat → Turn D
  | 0 => ⟨event, []⟩
  | count + 1 => (turnAt behaviour event count).next behaviour

/-- The calls of subscriptions in their order, where those that are gone when their turn comes
are left out. -/
def serve (behaviour : Behaviour D) : List (Subscription D) → Turn D → Turn D
  | [], turn => turn
  | node :: later, turn =>
      if node.1 ∈ turn.nodeIds then
        serve behaviour later (turn.call behaviour node)
      else
        serve behaviour later turn

/-- The subscriptions from the start that are called. -/
def served (behaviour : Behaviour D) (event : Event D) : List (Subscription D) :=
  (serve behaviour event.mEventHandlers.nodes ⟨event, []⟩).called

/-- No iterator at a node that is gone is used, and the subscriptions from the start that are there
when their turn comes are called, each of them once. -/
structure Serves (behaviour : Behaviour D) (event : Event D) : Prop where
  live : ∀ st, Visits (dispatchNext behaviour) (start event) st →
    dispatchNext behaviour st ≠ .error .deadNode
  all : ∃ st, Visits (dispatchNext behaviour) (start event) st ∧
    st.called = served behaviour event
  only : ∀ st, Visits (dispatchNext behaviour) (start event) st → ∀ node ∈ st.called,
    node ∈ event.mEventHandlers.nodes → node ∈ served behaviour event
  once : ∀ st, Visits (dispatchNext behaviour) (start event) st → st.called.Nodup

/-- Every subscription is still there when its own call is over. -/
def Survive (behaviour : Behaviour D) (event : Event D) : Prop :=
  ∀ count node, (turnAt behaviour event count).upcoming = some node →
    node.1 ∈ (turnAt behaviour event (count + 1)).nodeIds

end Spec

/-! ## One iteration -/

/-- The iterator stands before the first subscription that was not called. -/
structure Standing (st : Dispatch D) (back : List (Subscription D)) : Prop where
  parts : ∃ front, st.event.mEventHandlers.nodes = front ++ back ∧
    (∀ node ∈ front, node.1 ∈ st.called.map Prod.fst) ∧
    (st.itr = ⟨false, back.head?.map Prod.fst⟩ ∨
      ∃ before last, front = before ++ [last] ∧ st.itr = ⟨true, some last.1⟩)
  uncalled : ∀ node ∈ back, node.1 ∉ st.called.map Prod.fst
  allocated : ∀ node ∈ st.called, node.1 < st.event.mEventHandlers.nextNode
  once : (st.called.map Prod.fst).Nodup

def Dispatch.turn (st : Dispatch D) : Turn D :=
  ⟨st.event, st.called⟩

section Position

variable {st : Dispatch D} {node : Subscription D} {back : List (Subscription D)}

theorem start_standing (event : Event D) : Standing (start event) event.mEventHandlers.nodes where
  parts := ⟨[], rfl, nofun, .inl rfl⟩
  uncalled := fun _ _ => List.not_mem_nil
  allocated := nofun
  once := List.nodup_nil

theorem Standing.upcoming (standing : Standing st back) : st.turn.upcoming = back.head? := by
  obtain ⟨front, parts, called, -⟩ := standing.parts
  have skipped : front.find? (fun node => !st.turn.isCalled node) = none := by
    rw [List.find?_eq_none]
    intro node member
    rw [Turn.isCalled, Bool.not_eq_true', decide_eq_false_iff_not]
    exact not_not_intro (called node member)
  have nodes : st.turn.nodes = front ++ back := parts
  rw [Turn.upcoming, nodes, List.find?_append, skipped, Option.none_or]
  cases back with
  | nil => rfl
  | cons node rest =>
      have first := standing.uncalled node List.mem_cons_self
      apply List.find?_cons_of_pos
      rw [Turn.isCalled, Bool.not_eq_true', decide_eq_false_iff_not]
      exact first

/-- The node that `next` leads to. -/
theorem Standing.position (standing : Standing st back) :
    (if !st.itr.mForwardIterator then .ok st.itr.mIterator
      else st.itr.advance st.event.mEventHandlers) = .ok (back.head?.map Prod.fst) := by
  obtain ⟨front, parts, -, isStart | ⟨before, last, rfl, isLast⟩⟩ := standing.parts
  · rw [isStart]
    rfl
  · rw [isLast]
    rw [List.append_assoc, List.singleton_append] at parts
    exact LinkedList.successor_middle parts

theorem Standing.hasNext (standing : Standing st back) :
    st.itr.hasNext st.event.mEventHandlers = .ok back.head?.isSome := by
  have position := standing.position
  rw [LinkedList.Iterator.hasNext]
  split at position
  case isTrue before =>
    rw [if_pos before, Except.ok.inj position, Option.isSome_map]
  case isFalse behind =>
    rw [if_neg behind, position]
    exact congrArg Except.ok Option.isSome_map

theorem Standing.next (standing : Standing st (node :: back)) :
    st.itr.next st.event.mEventHandlers = .ok (node.2, ⟨true, some node.1⟩) := by
  obtain ⟨front, parts, -, -⟩ := standing.parts
  have element := LinkedList.dereference_middle parts
  have position := standing.position
  rw [LinkedList.Iterator.next]
  split at position
  case isTrue before =>
    rw [if_pos before, Except.ok.inj position]
    change (st.event.mEventHandlers.dereference node.1).bind _ = _
    rw [element]
    rfl
  case isFalse behind =>
    rw [if_neg behind, position]
    change (st.event.mEventHandlers.dereference node.1).bind _ = _
    rw [element]
    rfl

end Position

section Calls

variable [BEq D] {behaviour : Behaviour D} {st : Dispatch D} {node : Subscription D}
  {back : List (Subscription D)}

theorem Standing.ends (standing : Standing st []) : dispatchNext behaviour st = .ok (.inl ()) := by
  rw [dispatchNext, standing.hasNext]
  rfl

/-- The next subscription is called. -/
def Dispatch.call (behaviour : Behaviour D) (st : Dispatch D) (node : Subscription D) :
    Dispatch D where
  itr := ⟨true, some node.1⟩
  event := (st.turn.call behaviour node).event
  called := (st.turn.call behaviour node).called

theorem Standing.calls (standing : Standing st (node :: back)) :
    dispatchNext behaviour st = .ok (.inr (st.call behaviour node)) := by
  rw [dispatchNext, standing.hasNext]
  change (st.itr.next st.event.mEventHandlers).bind _ = _
  rw [standing.next]
  rfl

/-- A subscription that is gone when its own call is over leaves the iterator at a dead node. -/
theorem Dispatch.call_lost (gone : node.1 ∉ (st.turn.call behaviour node).nodeIds) :
    dispatchNext behaviour (st.call behaviour node) = .error .deadNode := by
  have advances := LinkedList.successor_dead gone
  change ((((st.turn.call behaviour node).event.mEventHandlers.successor node.1).bind _).bind _) = _
  rw [advances]
  rfl

theorem Dispatch.call_evolves (behaviour : Behaviour D) (st : Dispatch D)
    (node : Subscription D) :
    st.event.mEventHandlers.Evolves (st.call behaviour node).event.mEventHandlers :=
  evolves_acts st.event _

/-- After a call that leaves its own subscription there, the iterator stands behind it. -/
theorem Standing.stays (standing : Standing st (node :: back))
    (alive : node.1 ∈ (st.turn.call behaviour node).nodeIds) :
    ∃ kept added, Standing (st.call behaviour node) (kept ++ added) ∧ kept.Sublist back ∧
      ∀ other ∈ added, st.event.mEventHandlers.nextNode ≤ other.1 := by
  obtain ⟨front, parts, called, -⟩ := standing.parts
  have evolves := Dispatch.call_evolves behaviour st node
  have distinct := st.event.mEventHandlers.distinct
  have inList : node ∈ st.event.mEventHandlers.nodes := by
    rw [parts]
    exact List.mem_append_right front List.mem_cons_self
  have allocated := st.event.mEventHandlers.allocated node inList
  rw [parts, List.map_append, List.nodup_append] at distinct
  have apart := (List.nodup_cons.mp distinct.2.1).1
  obtain ⟨before, kept, added, nodes, fromFront, within, fresh⟩ := evolves.around parts alive
  refine ⟨kept, added, ?_, within, fresh⟩
  constructor
  case parts =>
    refine ⟨before ++ [node], ?_, ?_, .inr ⟨before, node, rfl, rfl⟩⟩
    · rw [nodes, List.append_assoc, List.singleton_append]
    · intro other member
      change other.1 ∈ (st.called ++ [node]).map Prod.fst
      rw [List.map_append, List.mem_append]
      rcases List.mem_append.mp member with isBefore | isNode
      · exact .inl (called other (fromFront.subset isBefore))
      · rw [List.mem_singleton.mp isNode]
        exact .inr List.mem_cons_self
  case uncalled =>
    intro other member
    change other.1 ∉ (st.called ++ [node]).map Prod.fst
    rw [List.map_append, List.mem_append, List.map_singleton, List.mem_singleton]
    rcases List.mem_append.mp member with isKept | isNew
    · rintro (isCalled | same)
      · exact standing.uncalled other (List.mem_cons_of_mem node (within.subset isKept)) isCalled
      · exact apart (same ▸ List.mem_map_of_mem (within.subset isKept))
    · have bound := fresh other isNew
      rintro (isCalled | same)
      · obtain ⟨earlier, member, same⟩ := List.mem_map.mp isCalled
        exact absurd (same ▸ standing.allocated earlier member) (Nat.not_lt.mpr bound)
      · exact absurd (same ▸ allocated) (Nat.not_lt.mpr bound)
  case allocated =>
    intro other member
    rcases List.mem_append.mp member with isCalled | isNode
    · exact Nat.lt_of_lt_of_le (standing.allocated other isCalled) evolves.nextNode
    · rw [List.mem_singleton.mp isNode]
      exact Nat.lt_of_lt_of_le allocated evolves.nextNode
  case once =>
    change ((st.called ++ [node]).map Prod.fst).Nodup
    rw [List.map_append, List.nodup_append]
    refine ⟨standing.once, List.nodup_singleton _, ?_⟩
    intro id isCalled other isNode same
    rw [List.map_singleton, List.mem_singleton] at isNode
    exact standing.uncalled node List.mem_cons_self (isNode ▸ same ▸ isCalled)

end Calls

/-! ## A whole dispatch -/

section Runs

variable [BEq D] {behaviour : Behaviour D} {event : Event D} {st : Dispatch D}
  {node : Subscription D} {back : List (Subscription D)} {count : Nat}

/-- A dispatch reaches a turn, with the subscriptions of `back` still to come. -/
def Reaches (behaviour : Behaviour D) (event : Event D) (turn : Turn D)
    (back : List (Subscription D)) : Prop :=
  ∃ st, Visits (dispatchNext behaviour) (start event) st ∧ Standing st back ∧ st.turn = turn

theorem Turn.next_nil (upcoming : (turnAt behaviour event count).upcoming = none) :
    turnAt behaviour event (count + 1) = turnAt behaviour event count := by
  rw [turnAt, Turn.next, upcoming]

theorem Turn.next_cons (upcoming : (turnAt behaviour event count).upcoming = some node) :
    turnAt behaviour event (count + 1) = (turnAt behaviour event count).call behaviour node := by
  rw [turnAt, Turn.next, upcoming]

theorem Reaches.upcoming {turn : Turn D} (reaches : Reaches behaviour event turn back) :
    turn.upcoming = back.head? := by
  obtain ⟨st, -, standing, rfl⟩ := reaches
  exact standing.upcoming

/-- The turn after one whose subscription survives its own call. -/
theorem Reaches.call {turn : Turn D} (reaches : Reaches behaviour event turn (node :: back))
    (alive : node.1 ∈ (turn.call behaviour node).nodeIds) :
    ∃ kept added, Reaches behaviour event (turn.call behaviour node) (kept ++ added) ∧
      kept.Sublist back ∧ ∀ other ∈ added, turn.event.mEventHandlers.nextNode ≤ other.1 := by
  obtain ⟨st, visits, standing, rfl⟩ := reaches
  obtain ⟨kept, added, standing', within, fresh⟩ := standing.stays alive
  exact ⟨kept, added, ⟨_, visits.next standing.calls, standing', rfl⟩, within, fresh⟩

/-- A turn after the other, as long as the called subscriptions survive. -/
theorem reaches_turnAt (count : Nat)
    (alive : ∀ before < count, ∀ node back,
      Reaches behaviour event (turnAt behaviour event before) (node :: back) →
        node.1 ∈ ((turnAt behaviour event before).call behaviour node).nodeIds) :
    ∃ back, Reaches behaviour event (turnAt behaviour event count) back := by
  induction count with
  | zero => exact ⟨_, start event, .start, start_standing event, rfl⟩
  | succ count ih =>
      obtain ⟨back, reaches⟩ := ih fun before less => alive before (Nat.lt_succ_of_lt less)
      have upcoming := reaches.upcoming
      cases back with
      | nil => exact ⟨[], (Turn.next_nil upcoming).symm ▸ reaches⟩
      | cons node back =>
          have stays := alive count (Nat.lt_succ_self count) node back reaches
          obtain ⟨kept, added, after, -, -⟩ := reaches.call stays
          exact ⟨kept ++ added, (Turn.next_cons upcoming).symm ▸ after⟩

theorem Survive.call (survive : Survive behaviour event)
    (upcoming : (turnAt behaviour event count).upcoming = some node) :
    node.1 ∈ ((turnAt behaviour event count).call behaviour node).nodeIds := by
  have stays := survive count node upcoming
  rw [Turn.next_cons upcoming] at stays
  exact stays

/-- Every state of a dispatch is a turn. -/
theorem Survive.visits (survive : Survive behaviour event)
    (visits : Visits (dispatchNext behaviour) (start event) st) :
    ∃ count back, Standing st back ∧ st.turn = turnAt behaviour event count := by
  refine visits.keeps (fun st => ∃ count back, Standing st back ∧
    st.turn = turnAt behaviour event count) ?_ ⟨0, _, start_standing event, rfl⟩
  rintro st next ⟨count, back, standing, turn⟩ goesOn
  cases back with
  | nil =>
      rw [standing.ends] at goesOn
      cases goesOn
  | cons node back =>
      rw [standing.calls] at goesOn
      cases goesOn
      have upcoming := standing.upcoming
      rw [turn] at upcoming
      have stays := survive.call upcoming
      rw [← turn] at stays
      obtain ⟨kept, added, standing', -, -⟩ := standing.stays stays
      refine ⟨count + 1, kept ++ added, standing', ?_⟩
      rw [Turn.next_cons upcoming, ← turn]
      rfl

/-! ### The subscriptions from the start -/

theorem Turn.call_nextNode (turn : Turn D) (node : Subscription D) :
    turn.event.mEventHandlers.nextNode ≤
      (turn.call behaviour node).event.mEventHandlers.nextNode :=
  (evolves_acts turn.event _).nextNode

/-- A node that is there is still to come, if it was not called. -/
theorem Reaches.mem_back {turn : Turn D} (reaches : Reaches behaviour event turn back)
    {id : NodeId} (isThere : id ∈ turn.nodeIds) (uncalled : id ∉ turn.called.map Prod.fst) :
    id ∈ back.map Prod.fst := by
  obtain ⟨st, -, standing, rfl⟩ := reaches
  obtain ⟨front, parts, called, -⟩ := standing.parts
  have nodes : st.turn.nodes = front ++ back := parts
  rw [Turn.nodeIds, nodes, List.map_append, List.mem_append] at isThere
  refine isThere.resolve_left fun isFront => ?_
  obtain ⟨other, member, same⟩ := List.mem_map.mp isFront
  exact uncalled (same ▸ called other member)

theorem Reaches.mem_nodeIds {turn : Turn D} (reaches : Reaches behaviour event turn back)
    (member : node ∈ back) : node.1 ∈ turn.nodeIds := by
  obtain ⟨st, -, standing, rfl⟩ := reaches
  obtain ⟨front, parts, -, -⟩ := standing.parts
  have nodes : st.turn.nodes = front ++ back := parts
  rw [Turn.nodeIds, nodes]
  exact List.mem_map_of_mem (List.mem_append_right front member)

/-- All the subscriptions from the start have had their turns. -/
structure Done (behaviour : Behaviour D) (event : Event D) (turn : Turn D) : Prop where
  reaches : ∃ back, Reaches behaviour event turn back ∧
    ∀ node ∈ back, event.mEventHandlers.nextNode ≤ node.1
  nextNode : event.mEventHandlers.nextNode ≤ turn.event.mEventHandlers.nextNode

/-- Serving the later subscriptions from the start, while `kept` of them are still there. -/
theorem Survive.serves (survive : Survive behaviour event) (later : List (Subscription D))
    {kept added : List (Subscription D)}
    (reaches : Reaches behaviour event (turnAt behaviour event count) (kept ++ added))
    (within : kept.Sublist later) (distinct : (later.map Prod.fst).Nodup)
    (old : ∀ node ∈ later, node.1 < event.mEventHandlers.nextNode)
    (new : ∀ node ∈ added, event.mEventHandlers.nextNode ≤ node.1)
    (uncalled : ∀ node ∈ later, node.1 ∉ (turnAt behaviour event count).called.map Prod.fst)
    (bound : event.mEventHandlers.nextNode ≤
      (turnAt behaviour event count).event.mEventHandlers.nextNode) :
    ∃ count', turnAt behaviour event count' =
        serve behaviour later (turnAt behaviour event count) ∧
      Done behaviour event (turnAt behaviour event count') := by
  induction later generalizing count kept added with
  | nil =>
      rw [List.sublist_nil.mp within, List.nil_append] at reaches
      exact ⟨count, rfl, ⟨added, reaches, new⟩, bound⟩
  | cons node later ih =>
      rw [List.map_cons, List.nodup_cons] at distinct
      have uncalled' := fun other member => uncalled other (List.mem_cons_of_mem node member)
      have old' := fun other member => old other (List.mem_cons_of_mem node member)
      rw [serve]
      split
      case isTrue isThere =>
        have member := reaches.mem_back isThere (uncalled node List.mem_cons_self)
        rw [List.map_append, List.mem_append] at member
        have isKept : node.1 ∈ kept.map Prod.fst := by
          refine member.resolve_right fun isAdded => ?_
          obtain ⟨other, member, same⟩ := List.mem_map.mp isAdded
          exact absurd (same ▸ new other member) (Nat.not_le.mpr (old node List.mem_cons_self))
        obtain ⟨rest, rfl, restWithin⟩ := LinkedList.front_of_sublist
          (List.nodup_cons.mpr distinct) within isKept
        have upcoming := reaches.upcoming
        obtain ⟨left, more, after, part, fresh⟩ := reaches.call (survive.call upcoming)
        obtain ⟨fromRest, fromAdded, rfl, leftRest, leftAdded⟩ := List.sublist_append_iff.mp part
        rw [List.append_assoc, ← Turn.next_cons upcoming] at after
        rw [← Turn.next_cons upcoming]
        refine ih after (leftRest.trans restWithin) distinct.2 old' ?_ ?_ ?_
        · intro other member
          rcases List.mem_append.mp member with isAdded | isMore
          · exact new other (leftAdded.subset isAdded)
          · exact Nat.le_trans bound (fresh other isMore)
        · intro other member
          rw [Turn.next_cons upcoming]
          change other.1 ∉ ((turnAt behaviour event count).called ++ [node]).map Prod.fst
          rw [List.map_append, List.mem_append, List.map_singleton, List.mem_singleton]
          rintro (isCalled | same)
          · exact uncalled' other member isCalled
          · exact distinct.1 (same ▸ List.mem_map_of_mem member)
        · rw [Turn.next_cons upcoming]
          exact Nat.le_trans bound (Turn.call_nextNode _ node)
      case isFalse gone =>
        have keptLater : kept.Sublist later := by
          cases within with
          | cons _ within => exact within
          | cons_cons _ _ => exact absurd (reaches.mem_nodeIds List.mem_cons_self) gone
        exact ih reaches keptLater distinct.2 old' new uncalled' bound

theorem Survive.serves_all (survive : Survive behaviour event) :
    ∃ count, (turnAt behaviour event count).called = served behaviour event ∧
      Done behaviour event (turnAt behaviour event count) := by
  have reaches : Reaches behaviour event (turnAt behaviour event 0)
      (event.mEventHandlers.nodes ++ []) :=
    ⟨start event, .start, (List.append_nil _).symm ▸ start_standing event, rfl⟩
  obtain ⟨count, same, done⟩ := survive.serves event.mEventHandlers.nodes reaches
    (List.Sublist.refl _) event.mEventHandlers.distinct event.mEventHandlers.allocated nofun
    (fun _ _ => List.not_mem_nil) (Nat.le_refl _)
  exact ⟨count, congrArg Turn.called same, done⟩

theorem called_subset (count more : Nat) :
    (turnAt behaviour event count).called ⊆ (turnAt behaviour event (count + more)).called := by
  induction more with
  | zero => exact List.Subset.refl _
  | succ more ih =>
      apply List.Subset.trans ih
      cases upcoming : (turnAt behaviour event (count + more)).upcoming with
      | none =>
          rw [← Nat.add_assoc, Turn.next_nil upcoming]
          exact List.Subset.refl _
      | some node =>
          rw [← Nat.add_assoc, Turn.next_cons upcoming]
          exact List.subset_append_left _ _

/-- Later, only new subscriptions are called. -/
theorem Done.later (survive : Survive behaviour event)
    (done : Done behaviour event (turnAt behaviour event count)) (more : Nat) :
    Done behaviour event (turnAt behaviour event (count + more)) ∧
      ∀ node ∈ (turnAt behaviour event (count + more)).called,
        node.1 < event.mEventHandlers.nextNode → node ∈ (turnAt behaviour event count).called := by
  induction more with
  | zero => exact ⟨done, fun node member _ => member⟩
  | succ more ih =>
      obtain ⟨⟨⟨back, reaches, new⟩, bound⟩, only⟩ := ih
      have upcoming := reaches.upcoming
      rw [← Nat.add_assoc]
      cases back with
      | nil =>
          rw [Turn.next_nil upcoming]
          exact ⟨⟨⟨[], reaches, new⟩, bound⟩, only⟩
      | cons node back =>
          obtain ⟨kept, added, after, within, fresh⟩ := reaches.call (survive.call upcoming)
          rw [Turn.next_cons upcoming]
          refine ⟨⟨⟨kept ++ added, after, ?_⟩, Nat.le_trans bound (Turn.call_nextNode _ node)⟩, ?_⟩
          · intro other member
            rcases List.mem_append.mp member with isKept | isNew
            · exact new other (List.mem_cons_of_mem node (within.subset isKept))
            · exact Nat.le_trans bound (fresh other isNew)
          · intro other member old
            rcases List.mem_append.mp member with isCalled | isNode
            · exact only other isCalled old
            · rw [List.mem_singleton.mp isNode] at old
              exact absurd old (Nat.not_lt.mpr (new node List.mem_cons_self))

theorem Survive.only_served (survive : Survive behaviour event) (count : Nat) :
    ∀ node ∈ (turnAt behaviour event count).called, node ∈ event.mEventHandlers.nodes →
      node ∈ served behaviour event := by
  intro node isCalled isOld
  obtain ⟨last, served, done⟩ := survive.serves_all
  have later := called_subset count last isCalled
  rw [Nat.add_comm] at later
  rw [← served]
  exact (done.later survive count).2 node later (event.mEventHandlers.allocated node isOld)

/-! ### When a dispatch serves -/

theorem Survive.dispatch_serves (survive : Survive behaviour event) : Serves behaviour event where
  live := by
    intro st visits
    obtain ⟨count, back, standing, -⟩ := survive.visits visits
    cases back with
    | nil =>
        rw [standing.ends]
        exact nofun
    | cons node back =>
        rw [standing.calls]
        exact nofun
  all := by
    obtain ⟨count, served, ⟨back, ⟨st, visits, -, turn⟩, -⟩, -⟩ := survive.serves_all
    exact ⟨st, visits, (congrArg Turn.called turn).trans served⟩
  only := by
    intro st visits
    obtain ⟨count, back, -, turn⟩ := survive.visits visits
    have called : st.called = (turnAt behaviour event count).called := congrArg Turn.called turn
    rw [called]
    exact survive.only_served count
  once := by
    intro st visits
    obtain ⟨count, back, standing, -⟩ := survive.visits visits
    exact standing.once.of_map

theorem Reaches.survives (live : ∀ st, Visits (dispatchNext behaviour) (start event) st →
      dispatchNext behaviour st ≠ .error .deadNode) {turn : Turn D}
    (reaches : Reaches behaviour event turn (node :: back)) :
    node.1 ∈ (turn.call behaviour node).nodeIds := by
  obtain ⟨st, visits, standing, rfl⟩ := reaches
  by_contra gone
  exact live _ (visits.next standing.calls) (Dispatch.call_lost gone)

theorem survive_of_live (live : ∀ st, Visits (dispatchNext behaviour) (start event) st →
      dispatchNext behaviour st ≠ .error .deadNode) : Survive behaviour event := by
  intro count node isNext
  obtain ⟨back, reaches⟩ := reaches_turnAt count fun _ _ _ _ before => before.survives live
  rw [Turn.next_cons isNext]
  have upcoming := reaches.upcoming
  rw [isNext] at upcoming
  cases back with
  | nil => cases upcoming
  | cons other back =>
      cases upcoming
      exact reaches.survives live

end Runs

/-- A dispatch uses no dead node, and calls every subscription from the start that is there when
its turn comes once, if and only if no subscription is gone when its own call is over. -/
theorem serves_iff [BEq D] (behaviour : Behaviour D) (event : Event D) :
    Serves behaviour event ↔ Survive behaviour event :=
  ⟨fun serves => survive_of_live serves.live, Survive.dispatch_serves⟩

/-- A delegate that unsubscribes itself. -/
theorem unsubscribed_itself :
    ¬Serves (D := Unit) (fun _ => [.unsubscribe ()]) ⟨LinkedList.empty.add ()⟩ := by
  intro serves
  have stays := survive_of_live serves.live 0 (0, ()) rfl
  cases stays

end Event

end Mindroid
