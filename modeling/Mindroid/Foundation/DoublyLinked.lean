import Mathlib.Data.List.Basic
import Mathlib.Data.List.Nodup
import Mathlib.Logic.Function.Basic

/-!
# Doubly linked lists over pointer maps

A node type carries two partial link functions, one for each direction.  A list
of nodes is *linked* when following the first function from a head pointer and
the second function from a tail pointer visits exactly that list, respectively
its reverse.  All statements are about the two functions separately: a path of
one link function, how a path changes when a link is overwritten, and how paths
in both directions combine.
-/

set_option autoImplicit false

namespace Foundation

variable {ν : Type}

/-- Following `next` from `start` visits the nodes of the list in order and
then arrives at `stop`. -/
def LinkPath (next : ν → Option ν) : Option ν → List ν → Option ν → Prop
  | start, [], stop => start = stop
  | start, node :: rest, stop => start = some node ∧ LinkPath next (next node) rest stop

namespace LinkPath

variable {next next' : ν → Option ν} {start middle stop : Option ν} {nodes : List ν}

@[simp] theorem nil_iff : LinkPath next start [] stop ↔ start = stop := Iff.rfl

@[simp] theorem cons_iff {node : ν} :
    LinkPath next start (node :: nodes) stop ↔
      start = some node ∧ LinkPath next (next node) nodes stop := Iff.rfl

theorem append_iff {front back : List ν} :
    LinkPath next start (front ++ back) stop ↔
      ∃ middle, LinkPath next start front middle ∧ LinkPath next middle back stop := by
  induction front generalizing start with
  | nil => simp
  | cons node front ih => simp [ih, and_assoc]

/-- A path reads the links of its own nodes only. -/
theorem congr (agree : ∀ node ∈ nodes, next' node = next node)
    (path : LinkPath next start nodes stop) : LinkPath next' start nodes stop := by
  induction nodes generalizing start with
  | nil => exact path
  | cons node nodes ih =>
      refine ⟨path.1, ?_⟩
      rw [agree node (by simp)]
      exact ih (fun other member => agree other (by simp [member])) path.2

/-- Two null-terminated paths from one pointer visit the same nodes. -/
theorem unique {left right : List ν} (leftPath : LinkPath next start left none)
    (rightPath : LinkPath next start right none) : left = right := by
  induction left generalizing start right with
  | nil =>
      cases right with
      | nil => rfl
      | cons node right =>
          have started := rightPath.1
          rw [nil_iff.mp leftPath] at started
          exact absurd started (by simp)
  | cons node left ih =>
      rcases leftPath with ⟨started, leftRest⟩
      cases right with
      | nil =>
          rw [nil_iff.mp rightPath] at started
          exact absurd started (by simp)
      | cons other right =>
          rcases rightPath with ⟨started', rightRest⟩
          have same : node = other := by
            rw [started] at started'
            exact Option.some.inj started'
          subst same
          rw [ih leftRest rightRest]

theorem start_eq_head? (path : LinkPath next start nodes none) : start = nodes.head? := by
  cases nodes with
  | nil => exact path
  | cons node nodes => exact path.1

theorem start_eq_none_iff (path : LinkPath next start nodes none) :
    start = none ↔ nodes = [] := by
  rw [path.start_eq_head?, List.head?_eq_none_iff]

/-- The link of a node inside a path leads to its successor. -/
theorem next_eq {front back : List ν} {node : ν}
    (path : LinkPath next start (front ++ node :: back) none) :
    next node = back.head? := by
  rcases append_iff.mp path with ⟨_, _, rest⟩
  exact start_eq_head? rest.2

variable [DecidableEq ν]

/-- Overwriting the link of a node outside the path changes nothing. -/
theorem update_of_not_mem {node : ν} (link : Option ν) (fresh : node ∉ nodes)
    (path : LinkPath next start nodes stop) :
    LinkPath (Function.update next node link) start nodes stop := by
  apply path.congr
  intro other member
  exact Function.update_of_ne (fun same : other = node => fresh (same ▸ member)) _ _

/-- Redirect the link behind `node`: the front part stays, and the path goes on
wherever the new link leads. -/
theorem redirect {front back back' : List ν} {node : ν} (link : Option ν)
    (nodup : (front ++ node :: back).Nodup)
    (path : LinkPath next start (front ++ node :: back) none)
    (tail : LinkPath (Function.update next node link) link back' none) :
    LinkPath (Function.update next node link) start (front ++ node :: back') none := by
  rcases append_iff.mp path with ⟨middle, frontPath, started, _⟩
  have outside : node ∉ front := by
    intro member
    exact (List.nodup_append.mp nodup).2.2 node member node (by simp) rfl
  apply append_iff.mpr
  refine ⟨middle, frontPath.update_of_not_mem link outside, started, ?_⟩
  rw [Function.update_self]
  exact tail

/-- Link a fresh node behind `node`. -/
theorem insertAfter {front back : List ν} {node fresh : ν}
    (nodup : (front ++ node :: back).Nodup) (absent : fresh ∉ front ++ node :: back)
    (path : LinkPath next start (front ++ node :: back) none) :
    LinkPath (Function.update (Function.update next fresh back.head?) node (some fresh))
      start (front ++ node :: fresh :: back) none := by
  have updated := path.update_of_not_mem back.head? absent
  have distinct : fresh ≠ node := fun same => absent (by simp [same])
  have outside : node ∉ back := by
    have := (List.nodup_append.mp nodup).2.1
    exact (List.nodup_cons.mp this).1
  apply updated.redirect (some fresh) nodup
  constructor
  · rfl
  · rw [Function.update_of_ne distinct, Function.update_self]
    rcases append_iff.mp updated with ⟨_, _, _, rest⟩
    have behind := rest.update_of_not_mem (some fresh) outside
    rwa [start_eq_head? rest] at behind

/-- Unlink the node behind `node`. -/
theorem removeAfter {front back : List ν} {node removed : ν}
    (nodup : (front ++ node :: removed :: back).Nodup)
    (path : LinkPath next start (front ++ node :: removed :: back) none) :
    LinkPath (Function.update next node (next removed)) start (front ++ node :: back) none := by
  have outside : node ∉ back := by
    have := (List.nodup_append.mp nodup).2.1
    exact fun member => (List.nodup_cons.mp this).1 (by simp [member])
  apply path.redirect (next removed) nodup
  rcases append_iff.mp path with ⟨_, _, _, _, rest⟩
  exact rest.update_of_not_mem (next removed) outside

end LinkPath

/-- The two link functions form one null-terminated list between the head and
the tail pointer. -/
structure Linked (next prev : ν → Option ν) (head tail : Option ν) (nodes : List ν) :
    Prop where
  forward : LinkPath next head nodes none
  backward : LinkPath prev tail nodes.reverse none
  nodup : nodes.Nodup

namespace Linked

variable {next prev next' prev' : ν → Option ν} {head tail : Option ν} {nodes : List ν}

theorem empty : Linked next prev none none [] :=
  ⟨rfl, rfl, List.nodup_nil⟩

theorem head_eq (linked : Linked next prev head tail nodes) : head = nodes.head? :=
  linked.forward.start_eq_head?

theorem tail_eq (linked : Linked next prev head tail nodes) : tail = nodes.getLast? := by
  rw [linked.backward.start_eq_head?, List.head?_reverse]

theorem head_eq_none_iff (linked : Linked next prev head tail nodes) :
    head = none ↔ nodes = [] :=
  linked.forward.start_eq_none_iff

theorem head_none_iff_tail_none (linked : Linked next prev head tail nodes) :
    head = none ↔ tail = none := by
  rw [linked.forward.start_eq_none_iff, linked.backward.start_eq_none_iff,
    List.reverse_eq_nil_iff]

/-- Reading the list from its other end. -/
theorem flip (linked : Linked next prev head tail nodes) :
    Linked prev next tail head nodes.reverse :=
  ⟨linked.backward, by simpa using linked.forward, List.nodup_reverse.mpr linked.nodup⟩

/-- The list reads the links of its own nodes only. -/
theorem congr (agreeNext : ∀ node ∈ nodes, next' node = next node)
    (agreePrev : ∀ node ∈ nodes, prev' node = prev node)
    (linked : Linked next prev head tail nodes) : Linked next' prev' head tail nodes :=
  ⟨linked.forward.congr agreeNext,
    linked.backward.congr fun node member => agreePrev node (List.mem_reverse.mp member),
    linked.nodup⟩

/-- The nodes are determined by the head pointer. -/
theorem unique {left right : List ν} {tail' : Option ν}
    (leftLinked : Linked next prev head tail left)
    (rightLinked : Linked next prev head tail' right) : left = right :=
  leftLinked.forward.unique rightLinked.forward

/-- The successor link of an inner node. -/
theorem next_eq {front back : List ν} {node : ν}
    (linked : Linked next prev head tail (front ++ node :: back)) :
    next node = back.head? :=
  linked.forward.next_eq

/-- The predecessor link of an inner node. -/
theorem prev_eq {front back : List ν} {node : ν}
    (linked : Linked next prev head tail (front ++ node :: back)) :
    prev node = front.getLast? := by
  have path := linked.backward
  rw [List.reverse_append, List.reverse_cons, List.append_assoc, List.singleton_append] at path
  rw [path.next_eq, List.head?_reverse]

/-- A list of one node without links. -/
theorem singleton {fresh : ν} (unlinkedNext : next fresh = none)
    (unlinkedPrev : prev fresh = none) :
    Linked next prev (some fresh) (some fresh) [fresh] :=
  ⟨⟨rfl, unlinkedNext⟩, ⟨rfl, unlinkedPrev⟩, List.nodup_singleton fresh⟩

variable [DecidableEq ν]

/-- Link a fresh node in front of the list. -/
theorem pushFront {first fresh : ν} {rest : List ν}
    (linked : Linked next prev head tail (first :: rest)) (absent : fresh ∉ first :: rest)
    (unlinked : prev fresh = none) :
    Linked (Function.update next fresh head) (Function.update prev first (some fresh))
      (some fresh) tail (fresh :: first :: rest) := by
  have distinct : fresh ≠ first := fun same => absent (by simp [same])
  refine ⟨⟨rfl, ?_⟩, ?_, List.nodup_cons.mpr ⟨absent, linked.nodup⟩⟩
  · rw [Function.update_self]
    exact linked.forward.update_of_not_mem head absent
  · have nodup := List.nodup_reverse.mpr linked.nodup
    have path := linked.backward
    rw [List.reverse_cons] at nodup path
    have lone : LinkPath (Function.update prev first (some fresh)) (some fresh) [fresh] none := by
      refine ⟨rfl, ?_⟩
      rw [Function.update_of_ne distinct, unlinked]
      exact LinkPath.nil_iff.mpr rfl
    simpa using path.redirect (some fresh) nodup lone

/-- Link a fresh node behind the last one. -/
theorem pushBack {last fresh : ν} {front : List ν}
    (linked : Linked next prev head tail (front ++ [last]))
    (absent : fresh ∉ front ++ [last]) (unlinked : next fresh = none) :
    Linked (Function.update next last (some fresh)) (Function.update prev fresh tail)
      head (some fresh) (front ++ [last, fresh]) := by
  have flipped := linked.flip
  rw [List.reverse_append, List.reverse_singleton, List.singleton_append] at flipped
  have absent' : fresh ∉ last :: front.reverse := by
    intro member
    exact absent (by simpa [or_comm] using member)
  simpa using (flipped.pushFront absent' unlinked).flip

/-- Link a fresh node between two neighbours. -/
theorem insertBetween {left right fresh : ν} {front back : List ν}
    (linked : Linked next prev head tail (front ++ left :: right :: back))
    (absent : fresh ∉ front ++ left :: right :: back) :
    Linked (Function.update (Function.update next fresh (some right)) left (some fresh))
      (Function.update (Function.update prev fresh (some left)) right (some fresh))
      head tail (front ++ left :: fresh :: right :: back) := by
  refine ⟨?_, ?_, ?_⟩
  · exact linked.forward.insertAfter linked.nodup absent
  · have nodup := List.nodup_reverse.mpr linked.nodup
    have path := linked.backward
    have absentBack : fresh ∉ (front ++ left :: right :: back).reverse := by
      simpa only [List.mem_reverse] using absent
    have split : (front ++ left :: right :: back).reverse =
        back.reverse ++ right :: (left :: front.reverse) := by simp
    rw [split] at nodup path absentBack
    have inserted := path.insertAfter nodup absentBack
    simpa using inserted
  · have nodup := linked.nodup
    simp only [List.mem_append, List.mem_cons, not_or] at absent
    simp only [List.nodup_append, List.nodup_cons, List.mem_cons, not_or] at nodup ⊢
    grind

/-- Unlink the first node; the second one becomes the head. -/
theorem popFront {first second : ν} {rest : List ν}
    (linked : Linked next prev head tail (first :: second :: rest)) :
    Linked next (Function.update prev second none) (next first) tail (second :: rest) := by
  refine ⟨linked.forward.2, ?_, (List.nodup_cons.mp linked.nodup).2⟩
  have nodup := List.nodup_reverse.mpr linked.nodup
  have path := linked.backward
  have split : (first :: second :: rest).reverse = rest.reverse ++ second :: [first] := by simp
  rw [split] at nodup path
  simpa using path.redirect none nodup (LinkPath.nil_iff.mpr rfl)

/-- Unlink a node between two neighbours. -/
theorem removeBetween {left removed right : ν} {front back : List ν}
    (linked : Linked next prev head tail (front ++ left :: removed :: right :: back)) :
    Linked (Function.update next left (some right)) (Function.update prev right (some left))
      head tail (front ++ left :: right :: back) := by
  have regrouped : Linked next prev head tail
      ((front ++ [left]) ++ removed :: right :: back) := by simpa using linked
  have nextRemoved : next removed = some right := regrouped.next_eq
  have prevRemoved : prev removed = some left := by
    rw [regrouped.prev_eq, List.getLast?_concat]
  refine ⟨?_, ?_, ?_⟩
  · rw [← nextRemoved]
    exact linked.forward.removeAfter linked.nodup
  · have nodup := List.nodup_reverse.mpr linked.nodup
    have path := linked.backward
    have split : (front ++ left :: removed :: right :: back).reverse =
        back.reverse ++ right :: removed :: (left :: front.reverse) := by simp
    rw [split] at nodup path
    rw [← prevRemoved]
    simpa using path.removeAfter nodup
  · refine linked.nodup.sublist ?_
    exact (List.sublist_cons_self removed (right :: back)).cons_cons left |>.append_left front

/-- Unlink the last node behind its predecessor. -/
theorem popBack {left removed : ν} {front : List ν}
    (linked : Linked next prev head tail (front ++ [left, removed])) :
    Linked (Function.update next left none) prev head (some left) (front ++ [left]) := by
  have flipped := linked.flip
  have split : (front ++ [left, removed]).reverse = removed :: left :: front.reverse := by simp
  rw [split] at flipped
  have prevRemoved : prev removed = some left := flipped.forward.2.1
  have popped := flipped.popFront.flip
  rw [prevRemoved] at popped
  simpa using popped

/-- Drop the nodes in front of `node`, which becomes the head. -/
theorem dropFront {front back : List ν} {node : ν}
    (linked : Linked next prev head tail (front ++ node :: back)) :
    Linked next (Function.update prev node none) (some node) tail (node :: back) := by
  rcases LinkPath.append_iff.mp linked.forward with ⟨_, _, started, rest⟩
  refine ⟨⟨rfl, rest⟩, ?_, (List.nodup_append.mp linked.nodup).2.1⟩
  have nodup := List.nodup_reverse.mpr linked.nodup
  have path := linked.backward
  have split : (front ++ node :: back).reverse = back.reverse ++ node :: front.reverse := by simp
  rw [split] at nodup path
  simpa using path.redirect none nodup (LinkPath.nil_iff.mpr rfl)

end Linked

end Foundation
