import Mathlib.Data.List.Basic
import Mathlib.Data.List.Nodup
import Mathlib.Data.List.Perm.Basic
import Mathlib.Data.List.TakeWhile

/-!
# Lists ordered by due time

Elements carry a due time.  A list is kept in nondecreasing order of due times;
a new element goes behind every element that is due no later, so that elements
of equal time stay in order of arrival.  Time zero is special: it means "before
everything else".
-/

set_option autoImplicit false

namespace Foundation

variable {ν : Type} (time : ν → Nat)

/-- Nondecreasing due times from front to back. -/
def DueOrdered (nodes : List ν) : Prop :=
  nodes.Pairwise fun earlier later => time earlier ≤ time later

/-- Insert an element at its place in the due order. -/
def insertDue (node : ν) (nodes : List ν) : List ν :=
  if time node = 0 then
    node :: nodes
  else
    nodes.takeWhile (fun other => decide (time other ≤ time node)) ++
      node :: nodes.dropWhile (fun other => decide (time other ≤ time node))

/-- Insert several elements one after the other. -/
def insertAllDue (fresh nodes : List ν) : List ν :=
  fresh.foldl (fun nodes node => insertDue time node nodes) nodes

variable {time}

theorem insertDue_perm (node : ν) (nodes : List ν) :
    (insertDue time node nodes).Perm (node :: nodes) := by
  unfold insertDue
  split
  · exact List.Perm.refl _
  · apply List.perm_middle.trans
    rw [List.takeWhile_append_dropWhile]

@[simp] theorem mem_insertDue {node other : ν} {nodes : List ν} :
    other ∈ insertDue time node nodes ↔ other = node ∨ other ∈ nodes := by
  rw [(insertDue_perm node nodes).mem_iff, List.mem_cons]

/-- The place of an element that is due after a front part and before the rest. -/
theorem insertDue_of_split {node : ν} {front back : List ν} (later : time node ≠ 0)
    (dueBefore : ∀ other ∈ front, time other ≤ time node)
    (dueAfter : ∀ other, back.head? = some other → time node < time other) :
    insertDue time node (front ++ back) = front ++ node :: back := by
  have taken : (front ++ back).takeWhile (fun other => decide (time other ≤ time node)) =
      front := by
    rw [List.takeWhile_append_of_pos (by simpa using dueBefore)]
    cases back with
    | nil => simp
    | cons other back =>
        have after := dueAfter other rfl
        simp [Nat.not_le.mpr after]
  have dropped : (front ++ back).dropWhile (fun other => decide (time other ≤ time node)) =
      back := by
    rw [List.dropWhile_append_of_pos (by simpa using dueBefore)]
    cases back with
    | nil => simp
    | cons other back =>
        have after := dueAfter other rfl
        simp [Nat.not_le.mpr after]
  rw [insertDue, if_neg later, taken, dropped]

/-- The due times of the elements already present decide the place. -/
theorem insertDue_congr {time' : ν → Nat} {node : ν} {nodes : List ν}
    (agree : ∀ other ∈ nodes, time' other = time other) (same : time' node = time node) :
    insertDue time' node nodes = insertDue time node nodes := by
  unfold insertDue
  rw [same]
  split
  · rfl
  · induction nodes with
    | nil => rfl
    | cons other nodes ih =>
        have tail := ih fun later member => agree later (by simp [member])
        rw [List.takeWhile_cons, List.takeWhile_cons, List.dropWhile_cons, List.dropWhile_cons,
          agree other (by simp)]
        split
        · simpa using tail
        · rfl

/-- Where an element lands: time zero goes to the front, any other time behind
exactly the elements that are due no later. -/
theorem insertDue_place {nodes : List ν} (ordered : DueOrdered time nodes) (node : ν) :
    ∃ front back, nodes = front ++ back ∧
      insertDue time node nodes = front ++ node :: back ∧
      (time node = 0 → front = []) ∧
      (time node ≠ 0 → (∀ other ∈ front, time other ≤ time node) ∧
        ∀ other ∈ back, time node < time other) := by
  by_cases now : time node = 0
  · exact ⟨[], nodes, rfl, by simp [insertDue, now], fun _ => rfl, fun later => absurd now later⟩
  · refine ⟨nodes.takeWhile fun other => decide (time other ≤ time node),
      nodes.dropWhile fun other => decide (time other ≤ time node),
      List.takeWhile_append_dropWhile.symm, by rw [insertDue, if_neg now],
      fun zero => absurd zero now, fun _ => ⟨?_, ?_⟩⟩
    · intro other member
      simpa using List.mem_takeWhile_imp member
    · intro other member
      -- the first dropped element is late, and the order makes every later one late
      have sorted : (nodes.dropWhile fun other => decide (time other ≤ time node)).Pairwise
          fun earlier later => time earlier ≤ time later :=
        ordered.sublist (List.dropWhile_sublist _)
      cases dropped : nodes.dropWhile fun other => decide (time other ≤ time node) with
      | nil => simp [dropped] at member
      | cons first rest =>
          have late := List.head?_dropWhile_not
            (fun other => decide (time other ≤ time node)) nodes
          rw [dropped] at sorted member late
          simp only [List.head?_cons, decide_eq_false_iff_not, Nat.not_le] at late
          rcases List.mem_cons.mp member with same | behind
          · exact same ▸ late
          · exact Nat.lt_of_lt_of_le late ((List.pairwise_cons.mp sorted).1 other behind)

theorem insertDue_ordered (node : ν) {nodes : List ν} (ordered : DueOrdered time nodes) :
    DueOrdered time (insertDue time node nodes) := by
  rcases insertDue_place ordered node with ⟨front, back, split, placed, atFront, between⟩
  rw [placed]
  subst split
  by_cases now : time node = 0
  · have empty := atFront now
    subst empty
    exact List.pairwise_cons.mpr ⟨fun _ _ => by simp [now], ordered⟩
  · rcases between now with ⟨dueBefore, dueAfter⟩
    rcases List.pairwise_append.mp ordered with ⟨frontOrdered, backOrdered, across⟩
    refine List.pairwise_append.mpr ⟨frontOrdered, List.pairwise_cons.mpr
      ⟨fun other member => Nat.le_of_lt (dueAfter other member), backOrdered⟩, ?_⟩
    intro earlier earlierMem later laterMem
    rcases List.mem_cons.mp laterMem with same | behind
    · exact same ▸ dueBefore earlier earlierMem
    · exact across earlier earlierMem later behind

/-- An element that is due before the pivot is inserted in front of it, and any
other one behind it. -/
theorem insertDue_append_cons (node : ν) {pivot : ν} {front back : List ν}
    (ordered : DueOrdered time (front ++ pivot :: back)) :
    insertDue time node (front ++ pivot :: back) =
      if time node = 0 ∨ time node < time pivot then
        insertDue time node front ++ pivot :: back
      else
        front ++ pivot :: insertDue time node back := by
  rcases List.pairwise_append.mp ordered with ⟨frontOrdered, pivotOrdered, across⟩
  split
  · next early =>
      by_cases now : time node = 0
      · simp [insertDue, now]
      · have before : time node < time pivot := early.resolve_left now
        rcases insertDue_place frontOrdered node with ⟨left, right, split, placed, _, between⟩
        rcases between now with ⟨dueBefore, dueAfter⟩
        rw [placed, split, List.append_assoc]
        rw [insertDue_of_split now dueBefore, List.append_assoc, List.cons_append]
        intro other first
        cases right with
        | nil => simpa [← (by simpa using first : pivot = other)] using before
        | cons head right =>
            have same : head = other := by simpa using first
            exact dueAfter other (by simp [same])
  · next late =>
      rcases not_or.mp late with ⟨now, notBefore⟩
      rcases insertDue_place (List.pairwise_cons.mp pivotOrdered).2 node with
        ⟨left, right, split, placed, _, between⟩
      rcases between now with ⟨dueBefore, dueAfter⟩
      rw [placed]
      subst split
      have regroup : front ++ pivot :: (left ++ right) = (front ++ pivot :: left) ++ right := by
        simp
      rw [regroup, insertDue_of_split now]
      · simp
      · intro other member
        have pivotDue : time pivot ≤ time node := Nat.not_lt.mp notBefore
        rcases List.mem_append.mp member with inFront | inBack
        · exact Nat.le_trans (across other inFront pivot (by simp)) pivotDue
        · rcases List.mem_cons.mp inBack with same | inLeft
          · exact same ▸ pivotDue
          · exact dueBefore other inLeft
      · intro other first
        exact dueAfter other (List.mem_of_mem_head? first)

@[simp] theorem insertAllDue_nil (nodes : List ν) : insertAllDue time [] nodes = nodes := rfl

@[simp] theorem insertAllDue_cons (node : ν) (fresh nodes : List ν) :
    insertAllDue time (node :: fresh) nodes =
      insertAllDue time fresh (insertDue time node nodes) := rfl

@[simp] theorem mem_insertAllDue {other : ν} {fresh nodes : List ν} :
    other ∈ insertAllDue time fresh nodes ↔ other ∈ fresh ∨ other ∈ nodes := by
  induction fresh generalizing nodes with
  | nil => simp
  | cons node fresh ih =>
      rw [insertAllDue_cons, ih, mem_insertDue, List.mem_cons]
      constructor
      · rintro (inFresh | same | inNodes)
        · exact .inl (.inr inFresh)
        · exact .inl (.inl same)
        · exact .inr inNodes
      · rintro ((same | inFresh) | inNodes)
        · exact .inr (.inl same)
        · exact .inl inFresh
        · exact .inr (.inr inNodes)

theorem length_insertAllDue (fresh nodes : List ν) :
    (insertAllDue time fresh nodes).length = fresh.length + nodes.length := by
  induction fresh generalizing nodes with
  | nil => simp
  | cons node fresh ih =>
      rw [insertAllDue_cons, ih, (insertDue_perm node nodes).length_eq, List.length_cons,
        List.length_cons]
      omega

/-- Bulk insertion around a pivot. -/
theorem insertAllDue_append_cons {pivot : ν} {fresh front back : List ν}
    (ordered : DueOrdered time (front ++ pivot :: back)) :
    insertAllDue time fresh (front ++ pivot :: back) =
      insertAllDue time
          (fresh.filter fun node => decide (time node = 0 ∨ time node < time pivot)) front ++
        pivot :: insertAllDue time
          (fresh.filter fun node => !decide (time node = 0 ∨ time node < time pivot)) back := by
  induction fresh generalizing front back with
  | nil => rfl
  | cons node fresh ih =>
      have next := insertDue_append_cons node ordered
      have nextOrdered := insertDue_ordered node ordered
      rw [insertAllDue_cons, next]
      rw [next] at nextOrdered
      by_cases early : time node = 0 ∨ time node < time pivot
      · rw [if_pos early] at nextOrdered ⊢
        rw [ih nextOrdered, List.filter_cons_of_pos (by simpa using early),
          List.filter_cons_of_neg (by simpa [← or_iff_not_imp_left] using early),
          insertAllDue_cons]
      · rw [if_neg early] at nextOrdered ⊢
        rw [ih nextOrdered, List.filter_cons_of_neg (by simpa using early),
          List.filter_cons_of_pos (by simpa using early), insertAllDue_cons]

end Foundation
