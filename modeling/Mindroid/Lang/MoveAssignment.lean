import Mindroid.Lang.ObjectRelease

/-!
# The move of a reference

The move assignment releases the old reference before it reads the other one.  It has the effect of
a copy of which the original is cleared, unless a reference is moved to itself, or one of the two is
in an object that only the old reference has kept alive.
-/

set_option autoImplicit false

namespace Mindroid

namespace ObjectHeap

/-- Both ways end with the same objects: `p` has the reference that `q` has had, which is the only
one that has moved, and its object is there. -/
def MovesAsCopied (elsewhere wps : Nat → Nat) (heap : ObjectHeap) (p q : Sp) : Prop :=
  ∃ heap', heap.moveAssign p q = .ok heap' ∧ heap.assignByCopy p q = .ok heap' ∧
    heap'.mPointer =
      (if p = q then heap.mPointer
        else Function.update (Function.update heap.mPointer p (heap.mPointer q)) q none) ∧
    (∀ x, heap.mPointer q = some x → heap'.alive x) ∧ heap'.Counted elsewhere wps

/-- An `sp` that there is. -/
def Has (heap : ObjectHeap) (sp : Sp) : Prop :=
  sp ∈ heap.sps ∧ heap.exists sp

/-- The heap without the old reference of `p`, which `p` still shows. -/
structure Freed (elsewhere wps : Nat → Nat) (start : ObjectHeap) (p : Sp) (heap : ObjectHeap) :
    Prop where
  sps : heap.sps = start.sps
  mPointer : heap.mPointer = start.mPointer
  isStrong : ∀ x, (heap.object x).isStrong = (start.object x).isStrong
  alive_iff : ∀ x, heap.alive x ↔ start.alive x ∧ ¬OnlyKeptBy elsewhere wps start p x
  strong : ∀ x, heap.alive x →
    (heap.object x).mStrongReferenceCounter = heap.otherReferences p x + elsewhere x
  weak : ∀ x, heap.alive x →
    (heap.object x).mWeakReferenceCounter = (heap.object x).mStrongReferenceCounter + wps x
  before : ∀ x, ¬start.alive x → heap.object x = start.object x
  finished : ∀ x, start.alive x → ¬heap.alive x →
    (heap.object x).mStrongReferenceCounter = 0 ∧ (heap.object x).mWeakReferenceCounter = wps x

section Moves

variable {elsewhere wps : Nat → Nat} {heap start : ObjectHeap} {p q sp : Sp} {x t : Nat}

theorem bind_ok {α β : Type} {result : Except Failure α} {a : α} {next : α → Except Failure β}
    (ok : result = .ok a) : (result >>= next) = next a := by
  rw [ok]
  rfl

theorem read_ok (remains : heap.exists sp) : heap.read sp = .ok (heap.mPointer sp) :=
  if_pos remains

theorem read_gone (isGone : heap.exists sp = false) : heap.read sp = .error .deleted := by
  rw [read, isGone]
  rfl

/-- An `sp` is still there unless it is lost. -/
theorem Freed.exists_iff (freed : Freed elsewhere wps start p heap) (remains : start.exists sp) :
    heap.exists sp = true ↔ ¬Lost elsewhere wps start p sp := by
  rw [ObjectHeap.exists_iff] at remains ⊢
  constructor
  · rintro owned ⟨x, isOwner, onlyKept⟩
    exact ((freed.alive_iff x).mp (owned x isOwner)).2 onlyKept
  · intro notLost x isOwner
    exact (freed.alive_iff x).mpr ⟨remains x isOwner, fun onlyKept => notLost ⟨x, isOwner, onlyKept⟩⟩

/-- The old reference is released unless it is lost. -/
theorem Counted.freed (counted : start.Counted elsewhere wps) (has : start.Has p)
    (notLost : ¬Lost elsewhere wps start p p) :
    ∃ heap, start.ifSome decStrongReference (start.mPointer p) = .ok heap ∧
      Freed elsewhere wps start p heap := by
  cases pointer : start.mPointer p with
  | none =>
      refine ⟨start, rfl, ⟨rfl, rfl, fun _ => rfl, ?_, ?_, counted.weak, fun _ _ => rfl, ?_⟩⟩
      · exact fun x => (and_iff_left (not_onlyKeptBy_null pointer)).symm
      · intro x isAlive
        have missing : ¬start.refers x p = true := by
          rw [refers_iff, pointer]
          exact fun refers => by cases refers.2
        rw [counted.strong x isAlive, references_eq counted.nodup has.1, if_neg missing,
          Nat.add_zero]
      · exact fun x isAlive isGone => absurd isAlive isGone
  | some old =>
      obtain ⟨heap, releases, releasing, released⟩ :=
        (decStrongReference_released counted has.1 has.2 pointer).1 notLost
      refine ⟨heap, releases, releasing.sps, releasing.mPointer, releasing.isStrong,
        releasing.alive_iff counted, releasing.strong, releasing.weak, releasing.before,
        released.finished⟩

/-- The heap with other references. -/
def showing (heap : ObjectHeap) (mPointer : Sp → Option Nat) : ObjectHeap :=
  { heap with mPointer := mPointer }

theorem write_showing (remains : heap.exists sp) (pointer : Option Nat) : heap.write sp pointer =
    .ok (heap.showing (Function.update heap.mPointer sp pointer)) :=
  if_pos remains

/-- The pointers after the move. -/
def movedPointers (start : ObjectHeap) (p q : Sp) : Sp → Option Nat :=
  Function.update (Function.update start.mPointer p (start.mPointer q)) q none

/-- What is referred to from elsewhere is alive. -/
theorem Freed.target_alive (freed : Freed elsewhere wps start p heap)
    (counted : start.Counted elsewhere wps) (member : sp ∈ start.sps) (ne : sp ≠ p)
    (remains : heap.exists sp) (pointer : start.mPointer sp = some t) : heap.alive t := by
  rw [ObjectHeap.exists_iff] at remains
  have remained : start.exists sp = true := ObjectHeap.exists_iff.mpr fun x isOwner =>
    ((freed.alive_iff x).mp (remains x isOwner)).1
  rw [freed.alive_iff]
  refine ⟨counted.targets sp member remained t pointer, fun onlyKept => ?_⟩
  cases onlyKept with
  | intro _ nowhere noWps referred members owners =>
      have refers : start.refers t sp = true := refers_iff.mpr ⟨remained, pointer⟩
      obtain ⟨owner, isOwner⟩ := Option.ne_none_iff_exists'.mp (members sp member refers ne)
      exact ((freed.alive_iff owner).mp (remains owner isOwner)).2
        (owners sp member refers ne owner isOwner)

theorem moveAssign_ok (counted : start.Counted elsewhere wps) (hasP : start.Has p)
    (hasQ : start.Has q) (ne : p ≠ q) (notLost : ¬Lost elsewhere wps start p p)
    (notLost' : ¬Lost elsewhere wps start p q)
    (releases : start.ifSome decStrongReference (start.mPointer p) = .ok heap)
    (freed : Freed elsewhere wps start p heap) :
    start.moveAssign p q = .ok (heap.showing (movedPointers start p q)) := by
  have hereP := (freed.exists_iff hasP.2).mpr notLost
  have hereQ := (freed.exists_iff hasQ.2).mpr notLost'
  have found : movedPointers start p q p = start.mPointer q := by
    rw [movedPointers, Function.update_of_ne ne, Function.update_self]
  have writesP : heap.write p (heap.mPointer q) = .ok (heap.showing
      (Function.update start.mPointer p (start.mPointer q))) := by
    rw [write_showing hereP, freed.mPointer]
  have writesQ : (heap.showing (Function.update start.mPointer p (start.mPointer q))).write q none =
      .ok (heap.showing (movedPointers start p q)) :=
    if_pos hereQ
  have readsP : (heap.showing (movedPointers start p q)).read p = .ok (start.mPointer q) := by
    rw [← found]
    exact if_pos hereP
  rw [moveAssign, bind_ok (read_ok hasP.2), bind_ok releases, bind_ok (read_ok hereP),
    bind_ok (read_ok hereQ), bind_ok writesP, bind_ok writesQ, bind_ok readsP]
  cases pointer : start.mPointer q with
  | none => rfl
  | some t =>
      have isAlive := freed.target_alive counted hasQ.1 ne.symm hereQ pointer
      have accesses : (heap.showing (movedPointers start p q)).access t = .ok (heap.object t) :=
        access_ok isAlive
      change moveStrongReference _ t = _
      rw [moveStrongReference, bind_ok accesses]
      rfl

/-! ### The copy -/

/-- The heap with a further reference to an object. -/
def more (heap : ObjectHeap) (t : Nat) : ObjectHeap :=
  heap.set t { heap.object t with
    mStrongReferenceCounter := (heap.object t).mStrongReferenceCounter + 1
    mWeakReferenceCounter := (heap.object t).mWeakReferenceCounter + 1 }

/-- The heap with one reference less. -/
def less (heap : ObjectHeap) (t : Nat) : ObjectHeap :=
  heap.set t { heap.object t with
    mStrongReferenceCounter := (heap.object t).mStrongReferenceCounter - 1
    mWeakReferenceCounter := (heap.object t).mWeakReferenceCounter - 1 }

theorem incStrongReference_ok (isAlive : heap.alive t)
    (strong : 1 ≤ (heap.object t).mStrongReferenceCounter) :
    heap.incStrongReference t = .ok (heap.more t) := by
  rw [incStrongReference, bind_ok (access_ok isAlive), if_neg (by omega)]
  rfl

theorem decStrongReference_less (isAlive : heap.alive t)
    (strong : 2 ≤ (heap.object t).mStrongReferenceCounter)
    (weak : 2 ≤ (heap.object t).mWeakReferenceCounter) :
    heap.decStrongReference t = .ok (heap.less t) :=
  decStrong_lower _ isAlive (by omega) (by omega) (fun last => by omega) (fun last => by omega)

theorem less_more (heap : ObjectHeap) (t : Nat) : (heap.more t).less t = heap := by
  rw [less, more, object_set_self, set_set]
  exact congrArg (fun object => { heap with object := object })
    (Function.update_eq_self t heap.object)

theorem alive_more (heap : ObjectHeap) (t x : Nat) : (heap.more t).alive x ↔ heap.alive x := by
  apply alive_set_iff
  rfl

theorem object_more (heap : ObjectHeap) (t : Nat) : (heap.more t).object t = { heap.object t with
    mStrongReferenceCounter := (heap.object t).mStrongReferenceCounter + 1
    mWeakReferenceCounter := (heap.object t).mWeakReferenceCounter + 1 } :=
  object_set_self _ _ _

theorem exists_more (heap : ObjectHeap) (t : Nat) (sp : Sp) :
    (heap.more t).exists sp = heap.exists sp :=
  exists_congr (alive_more heap t) sp

/-- The heap after a reference was taken from `q`, with one for the variable of the copy and one for
the reference that is to be set. -/
def shared (heap : ObjectHeap) (q : Sp) (t : Nat) : ObjectHeap :=
  (heap.showing (Function.update heap.mPointer q none)).more t

/-- The references of the copy are elsewhere. -/
def sharedElsewhere (elsewhere : Nat → Nat) (t : Nat) (x : Nat) : Nat :=
  elsewhere x + if x = t then 2 else 0

/-- There is a reference in `q`. -/
theorem Counted.strong_pos (counted : start.Counted elsewhere wps) (hasQ : start.Has q)
    (pointer : start.mPointer q = some t) :
    start.alive t ∧ 1 ≤ (start.object t).mStrongReferenceCounter ∧
      1 ≤ (start.object t).mWeakReferenceCounter := by
  have isAlive := counted.targets q hasQ.1 hasQ.2 t pointer
  have some_ : 0 < start.references t :=
    List.countP_pos_iff.mpr ⟨q, hasQ.1, refers_iff.mpr ⟨hasQ.2, pointer⟩⟩
  have strong := counted.strong t isAlive
  have weak := counted.weak t isAlive
  exact ⟨isAlive, by omega, by omega⟩

/-- The copy holds the object until the old reference of `p` is released. -/
theorem assignByCopy_ok (counted : start.Counted elsewhere wps) (hasP : start.Has p)
    (hasQ : start.Has q) (ne : p ≠ q) (pointer : start.mPointer q = some t)
    (releases : (start.shared q t).ifSome decStrongReference (start.mPointer p) = .ok heap)
    (hereP : heap.exists p) (pointers : heap.mPointer = (start.shared q t).mPointer)
    (isAlive : heap.alive t) (strong : 2 ≤ (heap.object t).mStrongReferenceCounter)
    (weak : 2 ≤ (heap.object t).mWeakReferenceCounter) :
    start.assignByCopy p q = .ok ((heap.showing (movedPointers start p q)).less t) := by
  obtain ⟨targetAlive, strong', weak'⟩ := counted.strong_pos hasQ pointer
  have readsQ : start.read q = .ok (some t) := by
    rw [read_ok hasQ.2, pointer]
  have copies : start.ifSome incStrongReference (some t) = .ok (start.more t) :=
    incStrongReference_ok targetAlive strong'
  have clears : (start.more t).clear q =
      .ok (start.showing (Function.update start.mPointer q none)) := by
    have here : (start.more t).exists q = true := (exists_more start t q).trans hasQ.2
    have reads : (start.more t).read q = .ok (some t) := by
      rw [read_ok here]
      exact congrArg Except.ok pointer
    have writes : (start.more t).write q none =
        .ok ((start.showing (Function.update start.mPointer q none)).more t) :=
      write_showing here none
    rw [clear, bind_ok reads]
    change ((start.more t).write q none >>= _) = _
    rw [bind_ok writes, decStrongReference_less, less_more]
    · exact (alive_more _ t t).mpr targetAlive
    · rw [object_more]
      exact Nat.succ_le_succ strong'
    · rw [object_more]
      exact Nat.succ_le_succ weak'
  have assigns : (start.showing (Function.update start.mPointer q none)).copyAssign p (some t) =
      .ok (heap.showing (movedPointers start p q)) := by
    have reads : (start.showing (Function.update start.mPointer q none)).read p =
        .ok (start.mPointer p) := by
      rw [← Function.update_of_ne ne none start.mPointer]
      exact if_pos hasP.2
    have shares : (start.showing (Function.update start.mPointer q none)).ifSome
        incStrongReference (some t) = .ok (start.shared q t) :=
      incStrongReference_ok targetAlive strong'
    rw [copyAssign, bind_ok reads, bind_ok shares, bind_ok releases, bind_ok (read_ok hereP),
      write_showing hereP, pointers, movedPointers, pointer]
    rw [Function.update_comm ne]
    rfl
  rw [assignByCopy, bind_ok readsQ, bind_ok copies, bind_ok clears, bind_ok assigns]
  exact decStrongReference_less isAlive strong weak

theorem exists_shared (start : ObjectHeap) (q : Sp) (t : Nat) (sp : Sp) :
    (start.shared q t).exists sp = start.exists sp :=
  exists_more _ t sp

theorem alive_shared (start : ObjectHeap) (q : Sp) (t x : Nat) :
    (start.shared q t).alive x ↔ start.alive x :=
  alive_more _ t x

/-- The references are the same but the one of `q`. -/
theorem refers_cleared {heap' : ObjectHeap} (same : ∀ sp, heap'.exists sp = heap.exists sp)
    (pointers : heap'.mPointer = Function.update heap.mPointer q none) (x : Nat) (sp : Sp) :
    heap'.refers x sp = (heap.refers x sp && sp != q) := by
  rw [refers, refers, same, pointers]
  by_cases isQ : sp = q
  · rw [isQ, Function.update_self, bne_self_eq_false, Bool.and_false]
    exact Bool.and_false _
  · rw [Function.update_of_ne isQ, bne_iff_ne.mpr isQ, Bool.and_true]

theorem otherReferences_cleared {heap' : ObjectHeap} (nodup : heap.sps.Nodup)
    (member : q ∈ heap.sps) (ne : p ≠ q) (sps : heap'.sps = heap.sps)
    (same : ∀ sp, heap'.exists sp = heap.exists sp)
    (pointers : heap'.mPointer = Function.update heap.mPointer q none) (x : Nat) :
    heap.otherReferences p x =
      heap'.otherReferences p x + if heap.refers x q then 1 else 0 := by
  have once := countP_other nodup member fun sp => heap.refers x sp && sp != p
  rw [bne_iff_ne.mpr ne.symm, Bool.and_true] at once
  rw [otherReferences, once, otherReferences, sps]
  congr 1
  refine List.countP_congr fun sp _ => ?_
  rw [refers_cleared same pointers, Bool.and_right_comm]

theorem Counted.shared (counted : start.Counted elsewhere wps) (hasQ : start.Has q)
    (pointer : start.mPointer q = some t) :
    (start.shared q t).Counted (sharedElsewhere elsewhere t) wps := by
  have references : ∀ x, start.references x =
      (start.shared q t).references x + if x = t then 1 else 0 := by
    intro x
    have cleared : (start.shared q t).references x = start.otherReferences q x := by
      refine List.countP_congr fun sp _ => ?_
      rw [refers_cleared (exists_shared start q t) rfl]
    have isTarget : start.refers x q = true ↔ x = t := by
      rw [refers_iff, pointer, Option.some.injEq]
      exact (and_iff_right hasQ.2).trans eq_comm
    rw [cleared, references_eq counted.nodup hasQ.1]
    simp only [isTarget]
  constructor
  case nodup => exact counted.nodup
  case strong =>
    intro x isAlive
    rw [alive_shared] at isAlive
    have strong := counted.strong x isAlive
    have more_ := references x
    rw [sharedElsewhere]
    by_cases isTarget : x = t
    · subst isTarget
      rw [if_pos rfl] at more_ ⊢
      rw [ObjectHeap.shared, object_more]
      change (start.object x).mStrongReferenceCounter + 1 = (start.shared q x).references x + _
      omega
    · rw [if_neg isTarget] at more_ ⊢
      rw [ObjectHeap.shared, more, object_set_of_ne isTarget]
      change (start.object x).mStrongReferenceCounter = (start.shared q t).references x + _
      omega
  case weak =>
    intro x isAlive
    rw [alive_shared] at isAlive
    have weak := counted.weak x isAlive
    by_cases isTarget : x = t
    · subst isTarget
      rw [ObjectHeap.shared, object_more]
      change (start.object x).mWeakReferenceCounter + 1 =
        (start.object x).mStrongReferenceCounter + 1 + _
      omega
    · rw [ObjectHeap.shared, more, object_set_of_ne isTarget]
      exact weak
  case targets =>
    intro sp member remains x found
    rw [exists_shared] at remains
    rw [alive_shared]
    change Function.update start.mPointer q none sp = some x at found
    by_cases isQ : sp = q
    · rw [isQ, Function.update_self] at found
      cases found
    · rw [Function.update_of_ne isQ] at found
      exact counted.targets sp member remains x found

theorem isStrong_shared (start : ObjectHeap) (q : Sp) (t x : Nat) :
    ((start.shared q t).object x).isStrong = (start.object x).isStrong := by
  by_cases isTarget : x = t
  · subst isTarget
    rw [shared, object_more]
    rfl
  · rw [shared, more, object_set_of_ne isTarget]
    rfl

/-- The copy changes nothing about what only `p` keeps. -/
theorem onlyKeptBy_shared_iff (hasQ : start.Has q) (ne : p ≠ q)
    (notLost : ¬Lost elsewhere wps start p q) (pointer : start.mPointer q = some t) (x : Nat) :
    OnlyKeptBy (sharedElsewhere elsewhere t) wps (start.shared q t) p x ↔
      OnlyKeptBy elsewhere wps start p x := by
  have keeps : ∀ x, KeptByWps wps (start.shared q t) x ↔ KeptByWps wps start x := by
    intro x
    rw [KeptByWps, KeptByWps, isStrong_shared]
  have refers : ∀ x, x ≠ t → ∀ sp, (start.shared q t).refers x sp = start.refers x sp := by
    intro x other sp
    rw [refers_cleared (exists_shared start q t) rfl]
    by_cases isQ : sp = q
    · have missing : start.refers x sp = false := by
        rw [← Bool.not_eq_true, isQ, refers_iff, pointer, Option.some.injEq]
        exact fun found => other found.2.symm
      rw [missing]
      rfl
    · rw [bne_iff_ne.mpr isQ, Bool.and_true]
  constructor
  · intro onlyKept
    induction onlyKept with
    | intro x nowhere noWps referred members _ owners =>
        rw [sharedElsewhere] at nowhere
        have other : x ≠ t := by
          rintro rfl
          rw [if_pos rfl] at nowhere
          omega
        have same := refers x other
        simp only [same] at referred members owners
        exact .intro x (by omega) (fun kept => noWps ((keeps x).mpr kept)) referred members owners
  · intro onlyKept
    induction onlyKept with
    | intro x nowhere noWps referred members owned owners =>
        have other : x ≠ t := by
          rintro rfl
          have found : start.refers x q = true := refers_iff.mpr ⟨hasQ.2, pointer⟩
          obtain ⟨owner, isOwner⟩ :=
            Option.ne_none_iff_exists'.mp (members q hasQ.1 found ne.symm)
          exact notLost ⟨owner, isOwner, owned q hasQ.1 found ne.symm owner isOwner⟩
        have same := refers x other
        refine .intro x ?_ (fun kept => noWps ((keeps x).mp kept)) ?_ ?_ ?_
        · rw [sharedElsewhere, if_neg other, nowhere]
        · simp only [same]
          exact referred
        · simp only [same]
          exact members
        · simp only [same]
          exact owners

/-- Both ways leave the same objects. -/
theorem showing_eq_less {heap' : ObjectHeap} (counted : start.Counted elsewhere wps)
    (hasQ : start.Has q) (ne : p ≠ q) (notLost : ¬Lost elsewhere wps start p q)
    (pointer : start.mPointer q = some t) (freed : Freed elsewhere wps start p heap)
    (freed' : Freed (sharedElsewhere elsewhere t) wps (start.shared q t) p heap') :
    heap.showing (movedPointers start p q) = (heap'.showing (movedPointers start p q)).less t := by
  have aliveSame : ∀ x, heap'.alive x ↔ heap.alive x := by
    intro x
    rw [freed.alive_iff, freed'.alive_iff, alive_shared,
      onlyKeptBy_shared_iff hasQ ne notLost pointer]
  have isStrong : ∀ x, (heap'.object x).isStrong = (heap.object x).isStrong := by
    intro x
    rw [freed.isStrong, freed'.isStrong, isStrong_shared]
  have destroyed : ∀ x, (heap'.object x).destroyed = (heap.object x).destroyed := by
    intro x
    rw [Bool.eq_iff_iff, ← not_iff_not, Bool.not_eq_true, Bool.not_eq_true]
    exact aliveSame x
  have others : ∀ x, heap.otherReferences p x =
      heap'.otherReferences p x + if x = t then 1 else 0 := by
    intro x
    have isTarget : heap.refers x q = true ↔ x = t := by
      rw [refers_iff, freed.mPointer, pointer, Option.some.injEq]
      exact (and_iff_right ((freed.exists_iff hasQ.2).mpr notLost)).trans eq_comm
    rw [otherReferences_cleared (freed.sps ▸ counted.nodup) (freed.sps ▸ hasQ.1) ne
      (freed'.sps.trans freed.sps.symm) (exists_congr aliveSame)
      (by rw [freed'.mPointer, freed.mPointer]; rfl)]
    simp only [isTarget]
  have targetAlive := freed.target_alive counted hasQ.1 ne.symm
    ((freed.exists_iff hasQ.2).mpr notLost) pointer
  have counters : ∀ x, heap.alive x →
      (heap'.object x).mStrongReferenceCounter =
          (heap.object x).mStrongReferenceCounter + (if x = t then 1 else 0) ∧
        (heap'.object x).mWeakReferenceCounter =
          (heap.object x).mWeakReferenceCounter + if x = t then 1 else 0 := by
    intro x isAlive
    have strong := freed.strong x isAlive
    have strong' := freed'.strong x ((aliveSame x).mpr isAlive)
    have weak := freed.weak x isAlive
    have weak' := freed'.weak x ((aliveSame x).mpr isAlive)
    have more_ := others x
    rw [sharedElsewhere] at strong'
    split at more_
    · rename_i isTarget
      rw [if_pos isTarget] at strong' ⊢
      omega
    · rename_i other
      rw [if_neg other] at strong' ⊢
      omega
  apply ObjectHeap.ext
  · exact freed.sps.trans freed'.sps.symm
  · rfl
  · funext x
    change heap.object x = (heap'.less t).object x
    by_cases isTarget : x = t
    · subst isTarget
      have counted := counters x targetAlive
      rw [if_pos rfl] at counted
      rw [less, object_set_self]
      ext1
      · simp only
        omega
      · simp only
        omega
      · exact (isStrong x).symm
      · exact (destroyed x).symm
    · rw [less, object_set_of_ne isTarget]
      by_cases isAlive : heap.alive x
      · have counted := counters x isAlive
        rw [if_neg isTarget] at counted
        exact CountedObject.ext counted.1.symm counted.2.symm (isStrong x).symm (destroyed x).symm
      · have isGone : ¬heap'.alive x := fun isAlive' => isAlive ((aliveSame x).mp isAlive')
        by_cases started : start.alive x
        · obtain ⟨strong, weak⟩ := freed.finished x started isAlive
          obtain ⟨strong', weak'⟩ :=
            freed'.finished x ((alive_shared start q t x).mpr started) isGone
          exact CountedObject.ext (strong.trans strong'.symm) (weak.trans weak'.symm)
            (isStrong x).symm (destroyed x).symm
        · have before := freed'.before x fun started' =>
            started ((alive_shared start q t x).mp started')
          rw [freed.before x started, before, shared, more, object_set_of_ne isTarget]
          rfl

/-- The counters are right again after the move. -/
theorem Freed.counted (freed : Freed elsewhere wps start p heap)
    (counted : start.Counted elsewhere wps) (hasP : start.Has p) (hasQ : start.Has q) (ne : p ≠ q)
    (notLost : ¬Lost elsewhere wps start p p) (notLost' : ¬Lost elsewhere wps start p q) :
    (heap.showing (movedPointers start p q)).Counted elsewhere wps := by
  have hereP := (freed.exists_iff hasP.2).mpr notLost
  have hereQ := (freed.exists_iff hasQ.2).mpr notLost'
  have nodup : heap.sps.Nodup := freed.sps ▸ counted.nodup
  have references : ∀ x, (heap.showing (movedPointers start p q)).references x =
      heap.otherReferences p x := by
    intro x
    have cleared := @otherReferences_cleared heap p q
      (heap.showing (Function.update heap.mPointer q none)) nodup (freed.sps ▸ hasQ.1) ne rfl
      (fun _ => rfl) rfl x
    have others : (heap.showing (movedPointers start p q)).otherReferences p x =
        (heap.showing (Function.update heap.mPointer q none)).otherReferences p x := by
      refine List.countP_congr fun sp _ => ?_
      rw [Bool.and_eq_true, Bool.and_eq_true, refers_iff, refers_iff, bne_iff_ne]
      refine and_congr_left fun isOther => and_congr_right fun _ => ?_
      change movedPointers start p q sp = _ ↔ Function.update heap.mPointer q none sp = _
      rw [movedPointers, Function.update_comm ne, Function.update_of_ne isOther, freed.mPointer]
    have moved : (heap.showing (movedPointers start p q)).refers x p = heap.refers x q := by
      rw [Bool.eq_iff_iff, refers_iff, refers_iff, freed.mPointer]
      change _ ∧ movedPointers start p q p = _ ↔ _
      rw [movedPointers, Function.update_of_ne ne, Function.update_self]
      exact and_congr_left fun _ => iff_of_true hereP hereQ
    rw [@references_eq (heap.showing (movedPointers start p q)) p nodup (freed.sps ▸ hasP.1),
      others, moved, cleared]
  constructor
  case nodup => exact nodup
  case strong =>
    intro x isAlive
    rw [references]
    exact freed.strong x isAlive
  case weak => exact freed.weak
  case targets =>
    intro sp member remains x found
    change movedPointers start p q sp = some x at found
    have inside : sp ∈ start.sps := freed.sps ▸ member
    by_cases isQ : sp = q
    · rw [movedPointers, isQ, Function.update_self] at found
      cases found
    · rw [movedPointers, Function.update_of_ne isQ] at found
      by_cases isP : sp = p
      · rw [isP, Function.update_self] at found
        exact freed.target_alive counted hasQ.1 ne.symm hereQ found
      · rw [Function.update_of_ne isP] at found
        exact freed.target_alive counted inside isP remains found

/-! ### Both ways -/

/-- The copy of a null pointer. -/
theorem assignByCopy_null (hasP : start.Has p) (hasQ : start.Has q)
    (pointer : start.mPointer q = none)
    (releases : start.ifSome decStrongReference (start.mPointer p) = .ok heap)
    (hereP : heap.exists p) :
    start.assignByCopy p q = .ok (heap.showing (Function.update heap.mPointer p none)) := by
  have readsQ : start.read q = .ok none := by
    rw [read_ok hasQ.2, pointer]
  have nothing : start.ifSome incStrongReference none = .ok start := rfl
  have clears : start.clear q = .ok start := by
    rw [clear, bind_ok readsQ]
    rfl
  have assigns : start.copyAssign p none =
      .ok (heap.showing (Function.update heap.mPointer p none)) := by
    rw [copyAssign, bind_ok (read_ok hasP.2), bind_ok nothing, bind_ok releases,
      bind_ok (read_ok hereP), write_showing hereP]
  rw [assignByCopy, bind_ok readsQ, bind_ok nothing, bind_ok clears, bind_ok assigns]
  rfl

/-- A reference is lost when it is moved to itself. -/
theorem moveAssign_self (hasP : start.Has p)
    (releases : start.ifSome decStrongReference (start.mPointer p) = .ok heap)
    (hereP : heap.exists p) :
    start.moveAssign p p = .ok (heap.showing (Function.update heap.mPointer p none)) := by
  have writesSame : heap.write p (heap.mPointer p) = .ok heap := by
    rw [write_showing hereP, Function.update_eq_self]
    rfl
  have readsNull : (heap.showing (Function.update heap.mPointer p none)).read p = .ok none := by
    have here : (heap.showing (Function.update heap.mPointer p none)).exists p = true := hereP
    rw [read_ok here]
    exact congrArg Except.ok (Function.update_self _ _ _)
  rw [moveAssign, bind_ok (read_ok hasP.2), bind_ok releases, bind_ok (read_ok hereP),
    bind_ok (read_ok hereP), bind_ok writesSame, bind_ok (write_showing hereP none),
    bind_ok readsNull]
  rfl

/-- A reference in an object that is destroyed is released twice. -/
theorem moveAssign_lost (counted : start.Counted elsewhere wps) (hasP : start.Has p)
    (lost : Lost elsewhere wps start p p) : start.moveAssign p q = .error .deleted := by
  rw [moveAssign, bind_ok (read_ok hasP.2)]
  cases pointer : start.mPointer p with
  | none =>
      obtain ⟨x, _, onlyKept⟩ := lost
      exact (not_onlyKeptBy_null pointer onlyKept).elim
  | some old =>
      have fails : start.ifSome decStrongReference (some old) = .error .deleted :=
        (decStrongReference_released counted hasP.1 hasP.2 pointer).2 lost
      rw [fails]
      rfl

/-- The other reference is read after the object that it is in. -/
theorem moveAssign_deleted (counted : start.Counted elsewhere wps) (hasP : start.Has p)
    (hasQ : start.Has q) (notLost : ¬Lost elsewhere wps start p p)
    (lost : Lost elsewhere wps start p q) : start.moveAssign p q = .error .deleted := by
  obtain ⟨heap, releases, freed⟩ := counted.freed hasP notLost
  have isGone : heap.exists q = false := by
    rw [← Bool.not_eq_true, freed.exists_iff hasQ.2]
    exact not_not_intro lost
  rw [moveAssign, bind_ok (read_ok hasP.2), bind_ok releases,
    bind_ok (read_ok ((freed.exists_iff hasP.2).mpr notLost)), read_gone isGone]
  rfl

/-- What the copy leaves. -/
theorem assignByCopy_eq (counted : start.Counted elsewhere wps) (hasP : start.Has p)
    (hasQ : start.Has q) (ne : p ≠ q) (notLost : ¬Lost elsewhere wps start p p)
    (notLost' : ¬Lost elsewhere wps start p q)
    (releases : start.ifSome decStrongReference (start.mPointer p) = .ok heap)
    (freed : Freed elsewhere wps start p heap) :
    start.assignByCopy p q = .ok (heap.showing (movedPointers start p q)) := by
  cases pointer : start.mPointer q with
  | none =>
      have hereP := (freed.exists_iff hasP.2).mpr notLost
      rw [assignByCopy_null hasP hasQ pointer releases hereP, movedPointers, pointer, freed.mPointer,
        Function.update_comm ne, ← pointer, Function.update_eq_self]
  | some t =>
      have onlyKept := onlyKeptBy_shared_iff hasQ ne notLost' pointer
      have notLostShared : ¬Lost (sharedElsewhere elsewhere t) wps (start.shared q t) p p :=
        fun ⟨x, isOwner, only⟩ => notLost ⟨x, isOwner, (onlyKept x).mp only⟩
      have hasShared : (start.shared q t).Has p :=
        ⟨hasP.1, (exists_shared start q t p).trans hasP.2⟩
      obtain ⟨heap', releases', freed'⟩ :=
        (counted.shared hasQ pointer).freed hasShared notLostShared
      have sameP : (start.shared q t).mPointer p = start.mPointer p :=
        Function.update_of_ne ne _ _
      rw [sameP] at releases'
      have isAlive : heap'.alive t := by
        rw [freed'.alive_iff, alive_shared, onlyKept]
        exact (freed.alive_iff t).mp (freed.target_alive counted hasQ.1 ne.symm
          ((freed.exists_iff hasQ.2).mpr notLost') pointer)
      have strong := freed'.strong t isAlive
      rw [sharedElsewhere, if_pos rfl] at strong
      have weak := freed'.weak t isAlive
      rw [assignByCopy_ok counted hasP hasQ ne pointer releases'
        ((freed'.exists_iff hasShared.2).mpr notLostShared) freed'.mPointer isAlive (by omega)
        (by omega), showing_eq_less counted hasQ ne notLost' pointer freed freed']

end Moves

/-- A list of two objects, with a variable for each of them. -/
def twoNodes : ObjectHeap where
  sps := [.variable 0, .variable 1, .member 0 0]
  mPointer := fun sp =>
    if sp = .variable 0 then some 0
    else if sp = .variable 1 ∨ sp = .member 0 0 then some 1
    else none
  object := fun object => {
    mStrongReferenceCounter := if object = 0 then 1 else if object = 1 then 2 else 0
    mWeakReferenceCounter := if object = 0 then 1 else if object = 1 then 2 else 0
    isStrong := true
    destroyed := false }

theorem counted_twoNodes : twoNodes.Counted (fun _ => 0) (fun _ => 0) := by
  constructor
  case nodup => decide
  case strong =>
    intro x _
    match x with
    | 0 => rfl
    | 1 => rfl
    | n + 2 => simp [references, refers, ObjectHeap.exists, twoNodes, Sp.owner]
  case weak => exact fun _ _ => rfl
  case targets => exact fun _ _ _ _ _ => rfl

end ObjectHeap

end Mindroid
