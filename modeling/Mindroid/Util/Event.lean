import Mindroid.Foundation.Loop
import Mindroid.Util.CollectionIterators

/-!
# Events

An event calls its delegates one after the other, with an iterator that stands at the one that is
running.  A delegate may change the list while it runs.
-/

set_option autoImplicit false

namespace Mindroid

open Foundation

variable {D : Type} [BEq D]

/-- The list of an event.  The ten templates differ in the arguments of the delegates. -/
structure Event (D : Type) where
  mEventHandlers : LinkedList D

namespace Event

/-- `operator+=`. -/
def subscribe (event : Event D) (delegate : D) : Event D where
  mEventHandlers := event.mEventHandlers.add delegate

/-- `operator-=`. -/
def unsubscribe (event : Event D) (delegate : D) : Event D where
  mEventHandlers := event.mEventHandlers.remove (· == delegate)

/-- What a delegate does to the event that called it. -/
inductive Action (D : Type) where
  | subscribe (delegate : D)
  | unsubscribe (delegate : D)

def act (event : Event D) : Action D → Event D
  | .subscribe delegate => event.subscribe delegate
  | .unsubscribe delegate => event.unsubscribe delegate

/-- A subscription: a node of the list and its delegate. -/
abbrev Subscription (D : Type) := NodeId × D

/-- What delegates do, by the calls so far.  The last one of them is running. -/
abbrev Behaviour (D : Type) := List (Subscription D) → List (Action D)

/-- A dispatch between two calls. -/
structure Dispatch (D : Type) where
  itr : LinkedList.Iterator
  event : Event D
  called : List (Subscription D)

/-- The start of `operator()`. -/
def start (event : Event D) : Dispatch D where
  itr := event.mEventHandlers.iterator
  event := event
  called := []

/-- One iteration of the loop of `operator()`. -/
def dispatchNext (behaviour : Behaviour D) (st : Dispatch D) :
    Except Fault (Unit ⊕ Dispatch D) := do
  if !(← st.itr.hasNext st.event.mEventHandlers) then
    return .inl ()
  let (delegate, itr) ← st.itr.next st.event.mEventHandlers
  let called := st.called ++ itr.mIterator.toList.map fun node => (node, delegate)
  return .inr ⟨itr, (behaviour called).foldl act st.event, called⟩

end Event

namespace LinkedList

variable {α : Type}

/-- Elements were removed, and new ones were added behind them. -/
structure Evolves (before after : LinkedList α) : Prop where
  nextNode : before.nextNode ≤ after.nextNode
  parts : ∃ kept added, after.nodes = kept ++ added ∧ kept.Sublist before.nodes ∧
    ∀ node ∈ added, before.nextNode ≤ node.1

theorem Evolves.refl (list : LinkedList α) : Evolves list list where
  nextNode := Nat.le_refl _
  parts := ⟨list.nodes, [], (List.append_nil _).symm, List.Sublist.refl _, nofun⟩

theorem Evolves.trans {before middle after : LinkedList α} (first : Evolves before middle)
    (second : Evolves middle after) : Evolves before after where
  nextNode := Nat.le_trans first.nextNode second.nextNode
  parts := by
    obtain ⟨kept, added, isMiddle, part, fresh⟩ := first.parts
    obtain ⟨left, more, isAfter, part', fresh'⟩ := second.parts
    rw [isMiddle] at part'
    obtain ⟨old, new, rfl, fromKept, fromAdded⟩ := List.sublist_append_iff.mp part'
    refine ⟨old, new ++ more, by rw [isAfter, List.append_assoc], fromKept.trans part, ?_⟩
    intro node member
    rcases List.mem_append.mp member with isNew | isMore
    · exact fresh node (fromAdded.subset isNew)
    · exact Nat.le_trans first.nextNode (fresh' node isMore)

/-- Around a node that is still there. -/
theorem Evolves.around {before after : LinkedList α} (evolves : Evolves before after)
    {front back : List (NodeId × α)} {node : NodeId} {value : α}
    (parts : before.nodes = front ++ (node, value) :: back)
    (alive : node ∈ after.nodes.map Prod.fst) :
    ∃ front' kept added, after.nodes = front' ++ (node, value) :: (kept ++ added) ∧
      front'.Sublist front ∧ kept.Sublist back ∧
        ∀ other ∈ added, before.nextNode ≤ other.1 := by
  have others := front_other parts
  have distinct := before.distinct
  have allocated : node < before.nextNode := by
    apply before.allocated (node, value)
    rw [parts]
    exact List.mem_append_right front List.mem_cons_self
  rw [parts, List.map_append, List.nodup_append] at distinct
  obtain ⟨left, added, nodes, part, fresh⟩ := evolves.parts
  rw [parts] at part
  obtain ⟨front', rest, rfl, fromFront, fromBack⟩ := List.sublist_append_iff.mp part
  have stillThere : node ∈ rest.map Prod.fst := by
    rw [nodes] at alive
    obtain ⟨other, member, same⟩ := List.mem_map.mp alive
    rcases List.mem_append.mp member with isLeft | isNew
    · rcases List.mem_append.mp isLeft with isBefore | isRest
      · exact absurd same (others other (fromFront.subset isBefore))
      · exact same ▸ List.mem_map_of_mem isRest
    · exact absurd (same ▸ fresh other isNew) (Nat.not_le.mpr allocated)
  obtain ⟨kept, rfl, within⟩ := front_of_sublist distinct.2.1 fromBack stillThere
  refine ⟨front', kept, added, ?_, fromFront, within, fresh⟩
  rw [nodes, List.append_assoc, List.cons_append]

theorem evolves_add (list : LinkedList α) (value : α) : Evolves list (list.add value) where
  nextNode := Nat.le_succ _
  parts := by
    refine ⟨list.nodes, [(list.nextNode, value)], rfl, List.Sublist.refl _, fun node member => ?_⟩
    rw [List.mem_singleton.mp member]

theorem evolves_remove (list : LinkedList α) (equals : α → Bool) :
    Evolves list (list.remove equals) where
  nextNode := Nat.le_refl _
  parts := ⟨_, [], (List.append_nil _).symm, List.eraseP_sublist, nofun⟩

end LinkedList

namespace Event

theorem evolves_act (event : Event D) (action : Action D) :
    event.mEventHandlers.Evolves (event.act action).mEventHandlers := by
  cases action with
  | subscribe delegate => exact LinkedList.evolves_add _ _
  | unsubscribe delegate =>
      exact LinkedList.evolves_remove event.mEventHandlers fun other => other == delegate

theorem evolves_acts (event : Event D) (actions : List (Action D)) :
    event.mEventHandlers.Evolves (actions.foldl act event).mEventHandlers := by
  induction actions generalizing event with
  | nil => exact LinkedList.Evolves.refl _
  | cons action actions ih => exact (evolves_act event action).trans (ih _)

end Event

end Mindroid
