import Mindroid.Foundation.Loop
import Mindroid.Foundation.Positions
import Mindroid.Util.LinkedList

/-!
# Iterators

The iterators of all collections are the same class.  An iterator stands before its position until
`next` is called, and at it then; after `remove` it stands before the element that came next.
-/

set_option autoImplicit false

namespace Mindroid

open Foundation

variable {C P E ε : Type}

/-- `Iterator` of a collection with these positions. -/
structure Iterator (P : Type) where
  mForwardIterator : Bool
  mIterator : P

namespace Iterator

section Methods

variable (positions : Positions C P E ε) (collection : C) (itr : Iterator P)

/-- `iterator()`. -/
def begin : Iterator P where
  mForwardIterator := false
  mIterator := positions.start collection

def hasNext : Except ε Bool :=
  if !itr.mForwardIterator then
    .ok !positions.isEnd collection itr.mIterator
  else do
    let next ← positions.advance collection itr.mIterator
    return !positions.isEnd collection next

def next : Except ε (E × Iterator P) := do
  let position ←
    if !itr.mForwardIterator then .ok itr.mIterator
    else positions.advance collection itr.mIterator
  return (← positions.get collection position, ⟨true, position⟩)

def remove : Except ε (Bool × Iterator P × C) :=
  if itr.mForwardIterator then do
    let (erased, next) ← positions.erase collection itr.mIterator
    return (true, ⟨false, next⟩, erased)
  else
    .ok (false, itr, collection)

end Methods

/-! ## Removing while iterating -/

/-- An element that was visited, and what `remove` returned if it was called. -/
structure Visit (E : Type) where
  element : E
  removed : Option Bool

/-- The state of the loop. -/
structure Sweep (C P E : Type) where
  collection : C
  itr : Iterator P
  visits : List (Visit E)

/-- One iteration of `while (itr.hasNext())`, where `remove` is called if the elements before and
the element itself decide so. -/
def sweepNext (positions : Positions C P E ε) (removes : List E → E → Except ε Bool)
    (sweep : Sweep C P E) : Except ε ((C × List (Visit E)) ⊕ Sweep C P E) := do
  if !(← hasNext positions sweep.collection sweep.itr) then
    return .inl (sweep.collection, sweep.visits)
  let (element, itr) ← next positions sweep.collection sweep.itr
  if ← removes (sweep.visits.map Visit.element) element then
    let (removed, itr, collection) ← remove positions sweep.collection itr
    return .inr ⟨collection, itr, sweep.visits ++ [⟨element, some removed⟩]⟩
  else
    return .inr ⟨sweep.collection, itr, sweep.visits ++ [⟨element, none⟩]⟩

/-- The loop over a collection, which visits an element in every iteration but the last one. -/
def sweep (positions : Positions C P E ε) (elements : C → List E) (outOfFuel : ε)
    (removes : List E → E → Except ε Bool) (collection : C) : Except ε (C × List (Visit E)) :=
  loop (sweepNext positions removes) outOfFuel ((elements collection).length + 1)
    ⟨collection, begin positions collection, []⟩

/-- Every element is visited once, `remove` returns true, and the other elements are left. -/
structure Swept (elements : C → List E) (removes : List E → E → Bool) (collection : C)
    (result : C × List (Visit E)) : Prop where
  visits : result.2.map Visit.element = elements collection
  removed : ∀ front visit back, result.2 = front ++ visit :: back → visit.removed =
    if removes (front.map Visit.element) visit.element then some true else none
  leaves : elements result.1 = (result.2.filter fun visit => visit.removed.isNone).map Visit.element

section Sweeps

variable {positions : Positions C P E ε} {elements : C → List E}
  {At : C → P → List E → List E → Prop} {removes : List E → E → Bool}
  {choose : List E → E → Except ε Bool} {collection : C}

/-- The elements that were visited and are left. -/
def kept (visits : List (Visit E)) : List E :=
  (visits.filter fun visit => visit.removed.isNone).map Visit.element

/-- Where an iterator is: before the elements to come, or at the element in front of them. -/
def Stands (At : C → P → List E → List E → Prop) (collection : C) (itr : Iterator P)
    (front back : List E) : Prop :=
  if itr.mForwardIterator then
    ∃ before element, front = before ++ [element] ∧
      At collection itr.mIterator before (element :: back)
  else
    At collection itr.mIterator front back

theorem hasNext_eq (lawful : positions.Lawful elements At) {itr : Iterator P}
    {front back : List E} (stands : Stands At collection itr front back) :
    hasNext positions collection itr = .ok !back.isEmpty := by
  rcases itr with ⟨_ | _, position⟩
  · rw [hasNext, lawful.isEnd stands]
    rfl
  · obtain ⟨before, element, rfl, at'⟩ := stands
    obtain ⟨next, advanced, behind⟩ := lawful.advance at'
    rw [hasNext, advanced]
    change Except.ok (!positions.isEnd collection next) = _
    rw [lawful.isEnd behind]

theorem next_eq (lawful : positions.Lawful elements At) {itr : Iterator P}
    {front back : List E} {element : E}
    (stands : Stands At collection itr front (element :: back)) :
    ∃ position, next positions collection itr = .ok (element, ⟨true, position⟩) ∧
      At collection position front (element :: back) := by
  rcases itr with ⟨_ | _, position⟩
  · refine ⟨position, ?_, stands⟩
    change (positions.get collection position).bind _ = _
    rw [lawful.get stands]
    rfl
  · obtain ⟨before, last, rfl, at'⟩ := stands
    obtain ⟨next, advanced, behind⟩ := lawful.advance at'
    refine ⟨next, ?_, behind⟩
    change (positions.advance collection position).bind _ = _
    rw [advanced]
    change (positions.get collection next).bind _ = _
    rw [lawful.get behind]
    rfl

theorem remove_eq (lawful : positions.Lawful elements At) {position : P} {front back : List E}
    {element : E} (at' : At collection position front (element :: back)) :
    ∃ erased next,
      remove positions collection ⟨true, position⟩ = .ok (true, ⟨false, next⟩, erased) ∧
      Stands At erased ⟨false, next⟩ front back := by
  obtain ⟨erased, next, erases, behind⟩ := lawful.erase at'
  refine ⟨erased, next, ?_, behind⟩
  change (positions.erase collection position).bind _ = _
  rw [erases]
  rfl

/-- The visits so far are decided by the elements before them. -/
def Decided (removes : List E → E → Bool) (visits : List (Visit E)) : Prop :=
  ∀ front visit back, visits = front ++ visit :: back → visit.removed =
    if removes (front.map Visit.element) visit.element then some true else none

theorem Decided.concat {visits : List (Visit E)} {visit : Visit E}
    (decided : Decided removes visits)
    (last : visit.removed =
      if removes (visits.map Visit.element) visit.element then some true else none) :
    Decided removes (visits ++ [visit]) := by
  intro front other back parts
  rcases List.eq_nil_or_concat back with rfl | ⟨before, final, rfl⟩
  · obtain ⟨same, isLast⟩ := List.append_inj' parts rfl
    cases isLast
    rw [← same]
    exact last
  · rw [List.concat_eq_append, ← List.cons_append, ← List.append_assoc] at parts
    exact decided front other before (List.append_inj' parts rfl).1

/-- What holds between two iterations. -/
structure Sweep.Inv (elements : C → List E) (At : C → P → List E → List E → Prop)
    (removes : List E → E → Bool) (collection : C) (sweep : Sweep C P E) (back : List E) :
    Prop where
  stands : Stands At sweep.collection sweep.itr (kept sweep.visits) back
  all : sweep.visits.map Visit.element ++ back = elements collection
  decided : Decided removes sweep.visits

theorem kept_concat (visits : List (Visit E)) (visit : Visit E) :
    kept (visits ++ [visit]) =
      kept visits ++ if visit.removed.isNone then [visit.element] else [] := by
  rw [kept, List.filter_append, List.map_append, kept]
  congr 1
  cases absent : visit.removed.isNone <;> simp [absent]

/-- An iteration with elements to come visits the first one of them. -/
theorem Sweep.Inv.goesOn (lawful : positions.Lawful elements At) {sweep : Sweep C P E}
    {element : E} {back : List E}
    (inv : sweep.Inv elements At removes collection (element :: back))
    (chooses : choose (sweep.visits.map Visit.element) element =
      .ok (removes (sweep.visits.map Visit.element) element)) :
    ∃ next, sweepNext positions choose sweep = .ok (.inr next) ∧
      next.Inv elements At removes collection back ∧
      next.visits.length = sweep.visits.length + 1 := by
  obtain ⟨position, isNext, here⟩ := next_eq lawful inv.stands
  have more := hasNext_eq lawful inv.stands
  have all : ∀ removed, (sweep.visits ++ [Visit.mk element removed]).map Visit.element ++ back =
      elements collection := by
    intro removed
    rw [List.map_append, List.append_assoc]
    exact inv.all
  have iterates : sweepNext positions choose sweep =
      if removes (sweep.visits.map Visit.element) element then
        (remove positions sweep.collection ⟨true, position⟩).bind fun result =>
          .ok (.inr ⟨result.2.2, result.2.1, sweep.visits ++ [⟨element, some result.1⟩]⟩)
      else
        .ok (.inr ⟨sweep.collection, ⟨true, position⟩, sweep.visits ++ [⟨element, none⟩]⟩) := by
    rw [sweepNext, more]
    change (Iterator.next positions sweep.collection sweep.itr).bind _ = _
    rw [isNext]
    change (choose (sweep.visits.map Visit.element) element).bind _ = _
    rw [chooses]
    rfl
  rw [iterates]
  by_cases chosen : removes (sweep.visits.map Visit.element) element = true
  · obtain ⟨erased, next, removed, stands⟩ := remove_eq lawful here
    rw [if_pos chosen, removed]
    refine ⟨_, rfl, ⟨?_, all _, inv.decided.concat (if_pos chosen).symm⟩, by simp⟩
    rw [kept_concat]
    exact (List.append_nil _).symm ▸ stands
  · rw [if_neg chosen]
    refine ⟨_, rfl, ⟨?_, all _, inv.decided.concat (if_neg chosen).symm⟩, by simp⟩
    rw [kept_concat]
    exact ⟨_, element, rfl, here⟩

theorem Sweep.Inv.ends (lawful : positions.Lawful elements At) {sweep : Sweep C P E}
    (inv : sweep.Inv elements At removes collection []) :
    sweepNext positions choose sweep = .ok (.inl (sweep.collection, sweep.visits)) ∧
      Swept elements removes collection (sweep.collection, sweep.visits) := by
  have none := hasNext_eq lawful inv.stands
  constructor
  · rw [sweepNext, none]
    rfl
  · have all := inv.all
    rw [List.append_nil] at all
    refine ⟨all, inv.decided, ?_⟩
    have stands := inv.stands
    rw [Stands] at stands
    split at stands
    case isTrue =>
      obtain ⟨before, element, whole, here⟩ := stands
      rw [lawful.elements here, ← whole]
      rfl
    case isFalse => rw [lawful.elements stands, List.append_nil]; rfl

/-- The loop visits every element once and removes those that were decided on. -/
theorem sweep_sweeps (lawful : positions.Lawful elements At) (outOfFuel : ε)
    (chooses : ∀ seen, ∀ element ∈ elements collection,
      choose seen element = .ok (removes seen element)) :
    ∃ result, sweep positions elements outOfFuel choose collection = .ok result ∧
      Swept elements removes collection result := by
  apply loop_returns
    (fun sweep : Sweep C P E => ∃ back, sweep.Inv elements At removes collection back)
    (fun sweep => (elements collection).length - sweep.visits.length)
  · rintro sweep ⟨_ | ⟨element, back⟩, inv⟩
    · obtain ⟨ends, swept⟩ := inv.ends lawful
      exact .inl ⟨_, ends, swept⟩
    · have member : element ∈ elements collection := by
        rw [← inv.all]
        exact List.mem_append_right _ List.mem_cons_self
      obtain ⟨next, goesOn, kept, more⟩ := inv.goesOn lawful (chooses _ element member)
      refine .inr ⟨next, goesOn, ⟨back, kept⟩, ?_⟩
      have size := congrArg List.length inv.all
      rw [List.length_append, List.length_map, List.length_cons] at size
      omega
  · exact ⟨elements collection, lawful.start collection, rfl, by simp [Decided]⟩
  · exact Nat.lt_succ_of_le (Nat.sub_le _ _)

end Sweeps

/-- Where the decision is about the element alone, a part of the elements is left. -/
theorem Swept.leaves_filter {elements : C → List E} {removes : E → Bool} {collection : C}
    {result : C × List (Visit E)}
    (swept : Swept elements (fun _ => removes) collection result) :
    elements result.1 = (elements collection).filter fun element => !removes element := by
  have same : ∀ visit ∈ result.2, visit.removed.isNone = !removes visit.element := by
    intro visit member
    obtain ⟨front, back, parts⟩ := List.append_of_mem member
    rw [swept.removed front visit back parts]
    cases removes visit.element <;> rfl
  rw [swept.leaves, ← swept.visits, List.filter_map, List.filter_congr same]
  rfl

/-- Every loop over the collections with these positions sweeps them. -/
def Sweeps (positions : Positions C P E Fault) (elements : C → List E) : Prop :=
  ∀ (removes : List E → E → Bool) (collection : C),
    ∃ result, sweep positions elements .outOfFuel (fun seen element => .ok (removes seen element))
        collection = .ok result ∧
      Swept elements removes collection result

theorem Sweeps.of_lawful {positions : Positions C P E Fault} {elements : C → List E}
    {At : C → P → List E → List E → Prop} (lawful : positions.Lawful elements At) :
    Sweeps positions elements :=
  fun _ _ => sweep_sweeps lawful .outOfFuel fun _ _ _ => rfl

end Iterator

end Mindroid
