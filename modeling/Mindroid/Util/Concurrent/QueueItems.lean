import Mathlib.Data.List.TakeWhile
import Mindroid.Util.Concurrent.LinkedBlockingQueue

/-!
# Items of a blocking queue

The methods of a queue that holds a list of items: what they return, and what the queue holds
after them.
-/

set_option autoImplicit false

namespace Mindroid.LinkedBlockingQueue

open Foundation

variable {T : Type} {heap : NodeHeap (QueueNode T)} {start : Option Nat}
  {entries front back : List (Nat × T)} {node : Nat} {item : T}

/-! ## Appending -/

theorem loop_findLast (spells : Spells heap.content start (front ++ back)) {fuel : Nat}
    (enough : back.length < fuel) :
    loop (findLast heap) .outOfFuel fuel
        (front.getLast?.map Prod.fst, back.head?.map Prod.fst) =
      .ok ((front ++ back).getLast?.map Prod.fst) := by
  induction fuel generalizing front back with
  | zero => exact absurd enough (Nat.not_lt_zero _)
  | succ fuel ih =>
      cases back with
      | nil =>
          rw [List.append_nil]
          rfl
      | cons entry back =>
          have isThere := spells.content_eq
          have iterates : findLast heap (front.getLast?.map Prod.fst, some entry.1) =
              .ok (.inr (some entry.1, back.head?.map Prod.fst)) := by
            rw [findLast, NodeHeap.read_eq Crash.deadNode isThere]
            rfl
          have regroup : front ++ entry :: back = (front ++ [entry]) ++ back := by
            rw [List.append_assoc, List.singleton_append]
          rw [regroup] at spells ⊢
          have later := ih spells (Nat.lt_of_succ_lt_succ enough)
          rw [List.getLast?_concat] at later
          rw [List.head?_cons, Option.map_some, loop, iterates]
          exact later

theorem findLast_finds {last : Nat}
    (spells : Spells heap.content start (front ++ [(last, item)])) {fuel : Nat}
    (enough : (front ++ [(last, item)]).length < fuel) :
    loop (findLast heap) .outOfFuel fuel (none, start) = .ok (some last) := by
  have isStart := spells.start_eq
  have whole : [] ++ (front ++ [(last, item)]) = front ++ [(last, item)] := List.nil_append _
  have found := loop_findLast (whole.symm ▸ spells) enough
  rw [whole, List.getLast?_concat, ← isStart] at found
  exact found

theorem put_empty (holds : Holds heap.content none []) (item : T) :
    ∃ queue', put ⟨heap, none⟩ item = .ok queue' ∧
      Holds queue'.heap.content queue'.mHeadNode [(heap.allocated, item)] := by
  have created : (heap.new ⟨item, none⟩).content heap.allocated = some ⟨item, none⟩ :=
    Function.update_self _ _ _
  obtain ⟨linked, links, content, -⟩ := NodeHeap.modify_ok Crash.deadNode created
    fun stored => { stored with nextNode := none }
  rw [NodeHeap.content_new, Function.update_idem] at content
  refine ⟨⟨linked, some heap.allocated⟩, ?_, ?_⟩
  · simp only [put, setNextNode, links]
    rfl
  · rw [content]
    exact holds.first

theorem put_behind {curNode last : Nat} {first : T}
    (holds : Holds heap.content (some curNode) (front ++ [(last, first)])) (item : T) :
    ∃ queue', put ⟨heap, some curNode⟩ item = .ok queue' ∧
      Holds queue'.heap.content queue'.mHeadNode
        (front ++ [(last, first), (heap.allocated, item)]) := by
  have created : (heap.new ⟨item, none⟩).content heap.allocated = some ⟨item, none⟩ :=
    Function.update_self _ _ _
  have spells := holds.spells.new ⟨item, none⟩
  have isLast : (heap.new ⟨item, none⟩).content last = some ⟨first, none⟩ := spells.content_eq
  have reads := NodeHeap.read_eq Crash.deadNode isLast
  have looped := findLast_finds spells (Nat.lt_succ_of_le spells.length_le)
  obtain ⟨linked, links, content, -⟩ := NodeHeap.modify_ok Crash.deadNode created
    fun stored => { stored with nextNode := none }
  rw [NodeHeap.content_new, Function.update_idem] at content
  rw [NodeHeap.content_new, ← content] at isLast
  obtain ⟨relinked, relinks, content', -⟩ := NodeHeap.modify_ok Crash.deadNode
    isLast fun stored => { stored with nextNode := some heap.allocated }
  refine ⟨⟨relinked, some curNode⟩, ?_, ?_⟩
  · simp only [put, setNextNode, looped, reads, links, relinks, bind, Except.bind, pure,
      Except.pure]
  · rw [content', content]
    exact holds.append heap.content_allocated

/-- A new item is the last one. -/
theorem put_appends (holds : Holds heap.content start entries) (item : T) :
    ∃ queue' node, put ⟨heap, start⟩ item = .ok queue' ∧
      Holds queue'.heap.content queue'.mHeadNode (entries ++ [(node, item)]) := by
  have isStart := holds.spells.start_eq
  rcases entries.eq_nil_or_concat' with rfl | ⟨front, ⟨last, first⟩, rfl⟩
  · cases isStart
    obtain ⟨queue', puts, holds'⟩ := put_empty holds item
    exact ⟨queue', heap.allocated, puts, holds'⟩
  · cases start with
    | none =>
        rw [List.head?_append] at isStart
        cases front <;> cases isStart
    | some curNode =>
        obtain ⟨queue', puts, holds'⟩ := put_behind holds item
        refine ⟨queue', heap.allocated, puts, ?_⟩
        rw [List.append_assoc]
        exact holds'

/-! ## Taking -/

/-- There is nothing to take from an empty queue. -/
theorem take_empty (holds : Holds heap.content start ([] : List (Nat × T))) :
    take (T := T) ⟨heap, start⟩ = .ok (none, ⟨heap, start⟩) := by
  cases holds.spells.start_eq
  rfl

/-- The first item is taken. -/
theorem take_first (holds : Holds heap.content start ((node, item) :: back)) :
    ∃ queue', take ⟨heap, start⟩ = .ok (some item, queue') ∧
      Holds queue'.heap.content queue'.mHeadNode back := by
  have isThere := holds.spells.first_eq
  have reads := NodeHeap.read_eq Crash.deadNode isThere
  obtain ⟨heap', deletes, content, -⟩ := NodeHeap.delete_ok Crash.deadNode isThere
  cases holds.spells.start_eq
  refine ⟨⟨heap', back.head?.map Prod.fst⟩, ?_, ?_⟩
  · simp only [take, getNextNode, List.head?_cons, Option.map_some, reads, deletes, bind,
      Except.bind, pure, Except.pure]
  · rw [content]
    exact holds.deleteHead isThere

/-! ## Removing -/

/-- The node behind a node of the list, and what is in it. -/
theorem Holds.content_behind {cur : Nat} {first stored : T}
    (holds : Holds heap.content start (front ++ (cur, first) :: (node, stored) :: back)) :
    heap.content node = some ⟨stored, back.head?.map Prod.fst⟩ ∧ cur ≠ node := by
  have regroup : front ++ (cur, first) :: (node, stored) :: back =
      (front ++ [(cur, first)]) ++ (node, stored) :: back := by
    rw [List.append_assoc, List.singleton_append]
  have spells := holds.spells
  rw [regroup] at spells
  refine ⟨spells.content_eq, ?_⟩
  rintro rfl
  have absent := (nodup_without spells.distinct).1
  rw [List.append_assoc] at absent
  exact absent mem_middle

section Removing

variable [BEq T]

/-- Whether an entry is removed. -/
def hasItem (item : T) (entry : Nat × T) : Bool :=
  entry.2 == item

/-- The first loop removes the entries at the front that have the item. -/
theorem loop_removeFront (holds : Holds heap.content start entries) {fuel : Nat}
    (enough : entries.length < fuel) (item : T) (found : Bool) :
    ∃ heap' start', loop (removeFront item) .outOfFuel fuel ⟨⟨heap, start⟩, start, found⟩ =
        .ok ⟨⟨heap', start'⟩, start',
          found || (entries.takeWhile (hasItem item)).any (hasItem item)⟩ ∧
      Holds heap'.content start' (entries.dropWhile (hasItem item)) := by
  induction entries generalizing heap start fuel found with
  | nil =>
      cases holds.spells.start_eq
      cases fuel with
      | zero => exact absurd enough (Nat.not_lt_zero _)
      | succ fuel =>
          refine ⟨heap, none, ?_, holds⟩
          rw [List.takeWhile_nil, List.any_nil, Bool.or_false]
          rfl
  | cons entry entries ih =>
      obtain ⟨node, stored⟩ := entry
      cases holds.spells.start_eq
      have isThere := holds.spells.first_eq
      have reads := NodeHeap.read_eq Crash.deadNode isThere
      cases fuel with
      | zero => exact absurd enough (Nat.not_lt_zero _)
      | succ fuel =>
          cases same : stored == item with
          | false =>
              have kept : ¬hasItem item (node, stored) = true := Bool.eq_false_iff.mp same
              refine ⟨heap, some node, ?_, ?_⟩
              · rw [List.takeWhile_cons_of_neg kept, List.any_nil, Bool.or_false]
                simp only [loop, removeFront, List.head?_cons, Option.map_some, reads, same, bind,
                  Except.bind, pure, Except.pure, Bool.false_eq_true, if_false]
              · rw [List.dropWhile_cons_of_neg kept]
                exact holds
          | true =>
              have removed : hasItem item (node, stored) = true := same
              obtain ⟨freed, deletes, content, -⟩ :=
                NodeHeap.delete_ok Crash.deadNode isThere
              have holds' := holds.deleteHead isThere
              rw [← content] at holds'
              obtain ⟨heap', start', later, holds''⟩ :=
                ih holds' (Nat.lt_of_succ_lt_succ enough) true
              refine ⟨heap', start', ?_, ?_⟩
              · rw [List.takeWhile_cons_of_pos removed, List.any_cons, removed, Bool.true_or,
                  Bool.or_true]
                rw [Bool.true_or] at later
                simp only [loop, removeFront, List.head?_cons, Option.map_some, reads, same,
                  deletes, bind, Except.bind, pure, Except.pure, if_true]
                exact later
              · rw [List.dropWhile_cons_of_pos removed]
                exact holds''

section Behind

variable {cur : Nat} {first stored : T}

theorem removeBehind_last (holds : Holds heap.content start (front ++ [(cur, first)]))
    (found : Bool) :
    removeBehind item ⟨⟨heap, start⟩, some cur, found⟩ =
      .ok (.inr ⟨⟨heap, start⟩, none, found⟩) := by
  have isCur := holds.spells.content_eq
  have reads := NodeHeap.read_eq Crash.deadNode isCur
  simp only [removeBehind, reads, List.head?_nil, Option.map_none, bind, Except.bind, pure,
    Except.pure]

theorem removeBehind_keeps
    (holds : Holds heap.content start (front ++ (cur, first) :: (node, stored) :: back))
    (different : (stored == item) = false) (found : Bool) :
    removeBehind item ⟨⟨heap, start⟩, some cur, found⟩ =
      .ok (.inr ⟨⟨heap, start⟩, some node, found⟩) := by
  have reads := NodeHeap.read_eq Crash.deadNode holds.spells.content_eq
  have readsNext := NodeHeap.read_eq Crash.deadNode holds.content_behind.1
  simp only [removeBehind, reads, List.head?_cons, Option.map_some, readsNext, different, bind,
    Except.bind, pure, Except.pure, Bool.false_eq_true, if_false]

theorem removeBehind_deletes
    (holds : Holds heap.content start (front ++ (cur, first) :: (node, stored) :: back))
    (same : (stored == item) = true) (found : Bool) :
    ∃ heap', removeBehind item ⟨⟨heap, start⟩, some cur, found⟩ =
        .ok (.inr ⟨⟨heap', start⟩, some cur, true⟩) ∧
      Holds heap'.content start (front ++ (cur, first) :: back) := by
  obtain ⟨isNext, apart⟩ := holds.content_behind
  have isCur := holds.spells.content_eq
  have reads := NodeHeap.read_eq Crash.deadNode isCur
  have readsNext := NodeHeap.read_eq Crash.deadNode isNext
  obtain ⟨freed, deletes, content, -⟩ := NodeHeap.delete_ok Crash.deadNode isNext
  rw [← Function.update_of_ne apart none heap.content, ← content] at isCur
  obtain ⟨linked, links, content', -⟩ := NodeHeap.modify_ok Crash.deadNode isCur
    fun stored => { stored with nextNode := back.head?.map Prod.fst }
  have holds' := holds.deleteBehind isNext
  rw [← content, ← content'] at holds'
  refine ⟨linked, ?_, holds'⟩
  simp only [removeBehind, reads, List.head?_cons, Option.map_some, readsNext, same, deletes,
    setNextNode, links, bind, Except.bind, pure, Except.pure, if_true]

/-- The second loop removes the entries behind its node that have the item. -/
theorem loop_removeBehind (holds : Holds heap.content start (front ++ (cur, first) :: back))
    {fuel : Nat} (enough : back.length + 1 < fuel) (item : T) (found : Bool) :
    ∃ st, loop (removeBehind item) .outOfFuel fuel ⟨⟨heap, start⟩, some cur, found⟩ = .ok st ∧
      st.foundItem = (found || back.any (hasItem item)) ∧
      Holds st.queue.heap.content st.queue.mHeadNode
        (front ++ (cur, first) :: back.filter fun entry => !hasItem item entry) := by
  induction back generalizing heap front cur first fuel found with
  | nil =>
      obtain ⟨fuel, rfl⟩ := Nat.exists_eq_add_of_lt enough
      refine ⟨⟨⟨heap, start⟩, none, found⟩, ?_, (Bool.or_false found).symm, holds⟩
      rw [List.length_nil, Nat.add_assoc, Nat.add_comm, loop, removeBehind_last holds found]
      rfl
  | cons entry back ih =>
      obtain ⟨node, stored⟩ := entry
      cases fuel with
      | zero => exact absurd enough (Nat.not_lt_zero _)
      | succ fuel =>
          have fewer : back.length + 1 < fuel := Nat.lt_of_succ_lt_succ enough
          rw [loop]
          cases same : stored == item with
          | false =>
              have kept : hasItem item (node, stored) = false := same
              rw [removeBehind_keeps holds same found, List.any_cons, kept, Bool.false_or,
                List.filter_cons_of_pos (by rw [kept]; rfl)]
              rw [← List.singleton_append, ← List.append_assoc] at holds
              obtain ⟨st, later, isFound, holds'⟩ := ih holds fewer found
              rw [List.append_assoc] at holds'
              exact ⟨st, later, isFound, holds'⟩
          | true =>
              have removed : hasItem item (node, stored) = true := same
              obtain ⟨heap', deletes, holds'⟩ := removeBehind_deletes holds same found
              rw [deletes, List.any_cons, removed, Bool.true_or, Bool.or_true,
                List.filter_cons_of_neg (by rw [removed]; exact Bool.false_ne_true)]
              obtain ⟨st, later, isFound, holds''⟩ := ih holds' fewer true
              rw [Bool.true_or] at isFound
              exact ⟨st, later, isFound, holds''⟩

end Behind

/-- All entries that have the item are removed, and only these. -/
theorem remove_leaves_others (holds : Holds heap.content start entries) (item : T) :
    ∃ queue', remove ⟨heap, start⟩ item = .ok (entries.any (hasItem item), queue') ∧
      Holds queue'.heap.content queue'.mHeadNode
        (entries.filter fun entry => !hasItem item entry) := by
  have enough := Nat.lt_add_right 1 (Nat.lt_succ_of_le holds.spells.length_le)
  obtain ⟨heap', start', front, holds'⟩ := loop_removeFront holds enough item false
  have whole : entries.takeWhile (hasItem item) ++ entries.dropWhile (hasItem item) = entries :=
    List.takeWhile_append_dropWhile
  have gone : (entries.takeWhile (hasItem item)).filter (fun entry => !hasItem item entry) = [] := by
    rw [List.filter_eq_nil_iff]
    intro entry member
    rw [List.mem_takeWhile_imp member]
    exact Bool.false_ne_true
  have stops := List.head?_dropWhile_not (hasItem item) entries
  rw [Bool.false_or] at front
  conv in entries.any _ => rw [← whole]
  conv in entries.filter _ => rw [← whole]
  rw [List.any_append, List.filter_append, gone, List.nil_append]
  cases rest : entries.dropWhile (hasItem item) with
  | nil =>
      rw [rest] at holds'
      cases holds'.spells.start_eq
      refine ⟨⟨heap', none⟩, ?_, holds'⟩
      rw [List.any_nil, Bool.or_false]
      simp only [remove, front, bind, Except.bind]
      rfl
  | cons entry behind =>
      rw [rest] at holds' stops
      have kept : hasItem item entry = false := stops
      have fewer : behind.length + 1 < heap.allocated + 2 := by
        have fits := List.length_dropWhile_le (hasItem item) entries
        rw [rest, List.length_cons] at fits
        omega
      have whole' : Holds heap'.content start' ([] ++ entry :: behind) := holds'
      obtain ⟨st, later, isFound, holds''⟩ := loop_removeBehind whole' fewer item
        ((entries.takeWhile (hasItem item)).any (hasItem item))
      cases holds'.spells.start_eq
      refine ⟨st.queue, ?_, ?_⟩
      · rw [List.any_cons, kept, Bool.false_or, ← isFound]
        simp only [List.head?_cons, Option.map_some] at front later
        simp only [remove, front, later, bind, Except.bind, pure, Except.pure]
      · rw [List.filter_cons_of_pos (by rw [kept]; rfl)]
        exact holds''

end Removing

/-! ## Destruction -/

theorem loop_deleteNext (holds : Holds heap.content start entries) {fuel : Nat}
    (enough : entries.length < fuel) :
    ∃ heap', loop deleteNext .outOfFuel fuel (heap, start) = .ok heap' ∧
      Holds heap'.content none ([] : List (Nat × T)) ∧ heap'.allocated = heap.allocated := by
  induction entries generalizing heap start fuel with
  | nil =>
      cases holds.spells.start_eq
      cases fuel with
      | zero => exact absurd enough (Nat.not_lt_zero _)
      | succ fuel => exact ⟨heap, rfl, holds, rfl⟩
  | cons entry entries ih =>
      obtain ⟨node, stored⟩ := entry
      cases holds.spells.start_eq
      have isThere := holds.spells.first_eq
      have reads := NodeHeap.read_eq Crash.deadNode isThere
      obtain ⟨freed, deletes, content, allocated⟩ :=
        NodeHeap.delete_ok Crash.deadNode isThere
      have holds' := holds.deleteHead isThere
      rw [← content] at holds'
      cases fuel with
      | zero => exact absurd enough (Nat.not_lt_zero _)
      | succ fuel =>
          obtain ⟨heap', later, ends, allocated'⟩ := ih holds' (Nat.lt_of_succ_lt_succ enough)
          refine ⟨heap', ?_, ends, allocated'.trans allocated⟩
          simp only [loop, deleteNext, List.head?_cons, Option.map_some, reads, deletes, bind,
            Except.bind, pure, Except.pure]
          exact later

/-- The destructor deletes every node. -/
theorem destroy_deletes (holds : Holds heap.content start entries) :
    ∃ heap', destroy ⟨heap, start⟩ = .ok heap' ∧ (∀ node, heap'.content node = none) ∧
      heap'.allocated = heap.allocated := by
  obtain ⟨heap', deletes, ends, allocated⟩ :=
    loop_deleteNext holds (Nat.lt_succ_of_le holds.spells.length_le)
  refine ⟨heap', deletes, fun node => ?_, allocated⟩
  rw [← Option.not_isSome_iff_eq_none]
  exact fun isAlive => absurd (ends.owned node isAlive) List.not_mem_nil

end Mindroid.LinkedBlockingQueue
