import Mindroid.Foundation.Folds
import Mindroid.Lang.ObjectHeap

/-!
# The release of a reference

A reference is released by its counter, and the objects that this destroys are those that were only
kept by the reference: no more are destroyed at any time, and no fewer in the end.
-/

set_option autoImplicit false

namespace Mindroid

open Foundation

namespace ObjectHeap

/-- What holds while a reference that `p` has had is released, with the references that are to be
released still. -/
structure Releasing (elsewhere wps : Nat → Nat) (start : ObjectHeap) (p : Sp) (old : Nat)
    (owed : List Nat) (heap : ObjectHeap) : Prop where
  sps : heap.sps = start.sps
  mPointer : heap.mPointer = start.mPointer
  isStrong : ∀ x, (heap.object x).isStrong = (start.object x).isStrong
  strong : ∀ x, heap.alive x → (heap.object x).mStrongReferenceCounter =
    heap.otherReferences p x + elsewhere x + owed.count x
  weak : ∀ x, heap.alive x →
    (heap.object x).mWeakReferenceCounter = (heap.object x).mStrongReferenceCounter + wps x
  targets : ∀ sp ∈ start.sps, sp ≠ p → heap.exists sp → ∀ x, start.mPointer sp = some x →
    heap.alive x
  pending : ∀ x ∈ owed, heap.alive x ∧ ∃ sp ∈ start.sps, start.refers x sp
  unreleased : ∀ x, heap.alive x → (heap.object x).mStrongReferenceCounter = 0 →
    KeptByWps wps start x ∨ (start.object x).mStrongReferenceCounter = 0
  onlyKept : ∀ x, start.alive x → ¬heap.alive x → OnlyKeptBy elsewhere wps start p x
  first : ¬heap.alive old ∨ (∀ x, start.alive x → heap.alive x) ∧ ∀ x ∈ owed, x = old
  before : ∀ x, ¬start.alive x → heap.object x = start.object x

/-- What a release leaves of an object, if it does not destroy the object of `p`. -/
structure Released (wps : Nat → Nat) (p : Sp) (heap heap' : ObjectHeap) : Prop where
  gone : ∀ x, ¬heap.alive x → heap'.object x = heap.object x
  finished : ∀ x, heap.alive x → ¬heap'.alive x →
    (heap'.object x).mStrongReferenceCounter = 0 ∧ (heap'.object x).mWeakReferenceCounter = wps x
  owner : ∀ x, p.owner = some x → heap.alive x → heap'.alive x

/-- A release goes on to the end, unless it destroys the object of `p`, where the reference is found
again. -/
def Outcome (elsewhere wps : Nat → Nat) (start : ObjectHeap) (p : Sp) (old : Nat)
    (owed : List Nat) (heap : ObjectHeap) (result : Except Failure ObjectHeap) : Prop :=
  (∃ heap', result = .ok heap' ∧ Releasing elsewhere wps start p old owed heap' ∧
      Released wps p heap heap') ∨
    result = .error .deleted ∧ Lost elsewhere wps start p p

section Frames

variable {heap heap' heap'' : ObjectHeap} {p sp : Sp} {wps : Nat → Nat} {x y : Nat}

theorem exists_congr (same : ∀ x, heap'.alive x ↔ heap.alive x) (sp : Sp) :
    heap'.exists sp = heap.exists sp := by
  rw [Bool.eq_iff_iff, exists_iff, exists_iff]
  exact forall_congr' fun x => imp_congr_right fun _ => same x

theorem otherReferences_congr (sps : heap'.sps = heap.sps)
    (pointers : heap'.mPointer = heap.mPointer) (same : ∀ x, heap'.alive x ↔ heap.alive x)
    (p : Sp) (x : Nat) : heap'.otherReferences p x = heap.otherReferences p x := by
  rw [otherReferences, otherReferences, sps]
  refine List.countP_congr fun sp _ => ?_
  rw [refers, refers, pointers, exists_congr same]

theorem alive_set_iff {counted : CountedObject}
    (same : counted.destroyed = (heap.object y).destroyed) (x : Nat) :
    (heap.set y counted).alive x ↔ heap.alive x := by
  rw [alive, alive]
  by_cases isSet : x = y
  · subst isSet
    rw [object_set_self, same]
  · rw [object_set_of_ne isSet]

theorem gone_set {counted : CountedObject} (destroyed : counted.destroyed = true) :
    ¬(heap.set y counted).alive y := by
  rw [alive, object_set_self, destroyed]
  exact Bool.noConfusion

theorem exists_destroyed {counted : CountedObject} (destroyed : counted.destroyed = true)
    (sp : Sp) : (heap.set y counted).exists sp = (heap.exists sp && sp.owner != some y) := by
  rw [Bool.eq_iff_iff, exists_iff, Bool.and_eq_true, exists_iff, bne_iff_ne]
  constructor
  · intro owned
    have other : sp.owner ≠ some y := fun isOwner => gone_set destroyed (owned y isOwner)
    refine ⟨fun x isOwner => ?_, other⟩
    have isAlive := owned x isOwner
    have ne : x ≠ y := by
      rintro rfl
      exact other isOwner
    rw [alive, object_set_of_ne ne] at isAlive
    exact isAlive
  · rintro ⟨owned, other⟩ x isOwner
    have ne : x ≠ y := by
      rintro rfl
      exact other isOwner
    rw [alive, object_set_of_ne ne]
    exact owned x isOwner

theorem Released.refl (wps : Nat → Nat) (p : Sp) (heap : ObjectHeap) : Released wps p heap heap where
  gone _ _ := rfl
  finished _ isAlive isGone := absurd isAlive isGone
  owner _ _ isAlive := isAlive

theorem Released.stays_gone (released : Released wps p heap heap') (isGone : ¬heap.alive x) :
    ¬heap'.alive x := by
  rw [alive, released.gone x isGone]
  exact isGone

theorem Released.trans (first : Released wps p heap heap') (second : Released wps p heap' heap'') :
    Released wps p heap heap'' where
  gone x isGone := (second.gone x (first.stays_gone isGone)).trans (first.gone x isGone)
  finished x isAlive isGone := by
    by_cases between : heap'.alive x
    · exact second.finished x between isGone
    · rw [second.gone x between]
      exact first.finished x isAlive between
  owner x isOwner isAlive := second.owner x isOwner (first.owner x isOwner isAlive)

/-- No memory comes back. -/
theorem Released.countP_le (released : Released wps p heap heap') (sps : heap'.sps = heap.sps) :
    heap'.sps.countP heap'.exists ≤ heap.sps.countP heap.exists := by
  rw [sps]
  refine List.countP_mono_left fun sp _ remains => ?_
  rw [exists_iff] at remains ⊢
  intro x isOwner
  by_contra isGone
  exact released.stays_gone isGone (remains x isOwner)

end Frames

section Release

variable {elsewhere wps : Nat → Nat} {start heap : ObjectHeap} {p : Sp} {old y : Nat}
  {owed : List Nat}

theorem Releasing.started (releasing : Releasing elsewhere wps start p old owed heap) {x : Nat}
    (isAlive : heap.alive x) : start.alive x := by
  by_contra isGone
  rw [alive, releasing.before x isGone] at isAlive
  exact isGone isAlive

/-- A counter is lowered. -/
theorem Releasing.lower (releasing : Releasing elsewhere wps start p old (y :: owed) heap)
    (stays : (heap.object y).mStrongReferenceCounter = 1 → KeptByWps wps start y) :
    Releasing elsewhere wps start p old owed (heap.set y { heap.object y with
      mStrongReferenceCounter := (heap.object y).mStrongReferenceCounter - 1
      mWeakReferenceCounter := (heap.object y).mWeakReferenceCounter - 1 }) := by
  have isAlive := (releasing.pending y List.mem_cons_self).1
  have strong := releasing.strong y isAlive
  rw [List.count_cons_self] at strong
  have weak := releasing.weak y isAlive
  generalize isSet : heap.set y { heap.object y with
    mStrongReferenceCounter := (heap.object y).mStrongReferenceCounter - 1
    mWeakReferenceCounter := (heap.object y).mWeakReferenceCounter - 1 } = heap'
  have same : ∀ x, heap'.alive x ↔ heap.alive x := by
    rw [← isSet]
    exact alive_set_iff rfl
  have others : ∀ x, x ≠ y → heap'.object x = heap.object x := by
    rw [← isSet]
    exact fun x ne => object_set_of_ne ne _
  have lowered : heap'.object y = { heap.object y with
      mStrongReferenceCounter := (heap.object y).mStrongReferenceCounter - 1
      mWeakReferenceCounter := (heap.object y).mWeakReferenceCounter - 1 } := by
    rw [← isSet, object_set_self]
  have sps : heap'.sps = heap.sps := by
    rw [← isSet]
    rfl
  have pointers : heap'.mPointer = heap.mPointer := by
    rw [← isSet]
    rfl
  constructor
  case sps => exact sps.trans releasing.sps
  case mPointer => exact pointers.trans releasing.mPointer
  case isStrong =>
    intro x
    rw [← releasing.isStrong x]
    by_cases isY : x = y
    · rw [isY, lowered]
    · rw [others x isY]
  case strong =>
    intro x isAlive'
    rw [otherReferences_congr sps pointers same]
    by_cases isY : x = y
    · rw [isY, lowered]
      simp only
      omega
    · have counted := releasing.strong x ((same x).mp isAlive')
      rw [List.count_cons_of_ne fun same => isY same.symm] at counted
      rw [others x isY, counted]
  case weak =>
    intro x isAlive'
    by_cases isY : x = y
    · rw [isY, lowered]
      simp only
      omega
    · rw [others x isY]
      exact releasing.weak x ((same x).mp isAlive')
  case targets =>
    intro sp member ne remains x pointer
    rw [exists_congr same] at remains
    exact (same x).mpr (releasing.targets sp member ne remains x pointer)
  case pending =>
    intro x member
    have pending := releasing.pending x (List.mem_cons_of_mem y member)
    exact ⟨(same x).mpr pending.1, pending.2⟩
  case unreleased =>
    intro x isAlive' unreferenced
    by_cases isY : x = y
    · subst isY
      rw [lowered] at unreferenced
      simp only at unreferenced
      exact .inl (stays (by omega))
    · rw [others x isY] at unreferenced
      exact releasing.unreleased x ((same x).mp isAlive') unreferenced
  case onlyKept =>
    intro x started isGone
    exact releasing.onlyKept x started fun isAlive' => isGone ((same x).mpr isAlive')
  case first =>
    rcases releasing.first with isGone | ⟨untouched, only⟩
    · exact .inl fun isAlive' => isGone ((same old).mp isAlive')
    · exact .inr ⟨fun x started => (same x).mpr (untouched x started),
        fun x member => only x (List.mem_cons_of_mem y member)⟩
  case before =>
    intro x isGone
    have ne : x ≠ y := by
      rintro rfl
      exact isGone (releasing.started isAlive)
    rw [others x ne]
    exact releasing.before x isGone

/-- What has no references any longer had been kept by the reference only. -/
theorem Releasing.onlyKeptBy (releasing : Releasing elsewhere wps start p old (y :: owed) heap)
    (unreferenced : heap.otherReferences p y = 0) (nowhere : elsewhere y = 0)
    (noWps : ¬KeptByWps wps start y) : OnlyKeptBy elsewhere wps start p y := by
  rw [otherReferences_eq_zero_iff] at unreferenced
  have gone : ∀ sp ∈ start.sps, start.refers y sp → sp ≠ p →
      ∃ owner, sp.owner = some owner ∧ start.alive owner ∧ ¬heap.alive owner := by
    intro sp member refers ne
    rw [refers_iff] at refers
    by_contra remains
    apply ne
    apply unreferenced sp (releasing.sps ▸ member)
    rw [refers_iff, releasing.mPointer, exists_iff]
    refine ⟨fun owner isOwner => ?_, refers.2⟩
    by_contra isGone
    exact remains ⟨owner, isOwner, exists_iff.mp refers.1 owner isOwner, isGone⟩
  refine .intro y nowhere noWps (releasing.pending y List.mem_cons_self).2 ?_ ?_
  · intro sp member refers ne isVariable
    obtain ⟨owner, isOwner, _⟩ := gone sp member refers ne
    cases isVariable.symm.trans isOwner
  · intro sp member refers ne owner isOwner
    obtain ⟨owner', isOwner', started, isGone⟩ := gone sp member refers ne
    cases isOwner.symm.trans isOwner'
    exact releasing.onlyKept owner started isGone

/-- What a member of the object refers to. -/
theorem Releasing.target (releasing : Releasing elsewhere wps start p old owed heap)
    (isAlive : heap.alive y) {x : Nat} (member : x ∈ heap.targetsOf p y) :
    ∃ sp ∈ start.sps, sp ≠ p ∧ sp.owner = some y ∧ start.refers x sp ∧ heap.refers x sp ∧
      heap.alive x := by
  rw [targetsOf, List.mem_filterMap] at member
  obtain ⟨sp, member, pointer⟩ := member
  rw [List.mem_filter, List.mem_reverse, members, List.mem_filter, beq_iff_eq, bne_iff_ne]
    at member
  obtain ⟨⟨member, isOwner⟩, ne⟩ := member
  rw [releasing.sps] at member
  have remains : heap.exists sp = true := exists_iff.mpr fun z isOwner' => by
    cases isOwner.symm.trans isOwner'
    exact isAlive
  have remained : start.exists sp = true := exists_iff.mpr fun z isOwner' => by
    cases isOwner.symm.trans isOwner'
    exact releasing.started isAlive
  refine ⟨sp, member, ne, isOwner, ?_, refers_iff.mpr ⟨remains, pointer⟩, ?_⟩
  · rw [refers_iff, ← releasing.mPointer]
    exact ⟨remained, pointer⟩
  · rw [releasing.mPointer] at pointer
    exact releasing.targets sp member ne remains x pointer

/-- The last reference is gone, so that the object is destroyed, and its members are to be
released. -/
theorem Releasing.destroy (releasing : Releasing elsewhere wps start p old (y :: owed) heap)
    (last : (heap.object y).mStrongReferenceCounter = 1) (noWps : ¬KeptByWps wps start y)
    {counted : CountedObject} (destroyed : counted.destroyed = true)
    (isStrong : counted.isStrong = (heap.object y).isStrong) :
    Releasing elsewhere wps start p old (heap.targetsOf p y ++ owed) (heap.set y counted) := by
  have isAlive := (releasing.pending y List.mem_cons_self).1
  have strong := releasing.strong y isAlive
  rw [List.count_cons_self, last] at strong
  have unreferenced : heap.otherReferences p y = 0 := by omega
  have onlyKept := releasing.onlyKeptBy unreferenced (by omega) noWps
  have notOwed : y ∉ owed := List.count_eq_zero.mp (by omega)
  have notTarget : y ∉ heap.targetsOf p y := by
    intro member
    obtain ⟨sp, member, ne, _, _, refers, _⟩ := releasing.target isAlive member
    exact ne (otherReferences_eq_zero_iff.mp unreferenced sp (releasing.sps ▸ member) refers)
  have isGone : ¬(heap.set y counted).alive y := gone_set destroyed
  have others : ∀ x, x ≠ y → ((heap.set y counted).alive x ↔ heap.alive x) := by
    intro x ne
    rw [alive, object_set_of_ne ne, alive]
  have remain : ∀ sp, (heap.set y counted).exists sp = (heap.exists sp && sp.owner != some y) :=
    exists_destroyed destroyed
  constructor
  case sps => exact releasing.sps
  case mPointer => exact releasing.mPointer
  case isStrong =>
    intro x
    rw [← releasing.isStrong x]
    by_cases isY : x = y
    · rw [isY, object_set_self, isStrong]
    · rw [object_set_of_ne isY]
  case strong =>
    intro x isAlive'
    have ne : x ≠ y := by
      rintro rfl
      exact isGone isAlive'
    have before := releasing.strong x ((others x ne).mp isAlive')
    have fewer := @otherReferences_destroyed heap (heap.set y counted) p y rfl rfl isAlive remain x
    rw [fewer, List.count_cons_of_ne ne.symm] at before
    rw [object_set_of_ne ne, List.count_append, before]
    omega
  case weak =>
    intro x isAlive'
    have ne : x ≠ y := by
      rintro rfl
      exact isGone isAlive'
    rw [object_set_of_ne ne]
    exact releasing.weak x ((others x ne).mp isAlive')
  case targets =>
    intro sp member ne remains x pointer
    rw [remain, Bool.and_eq_true] at remains
    have isAlive' := releasing.targets sp member ne remains.1 x pointer
    refine (others x ?_).mpr isAlive'
    rintro rfl
    apply ne
    apply otherReferences_eq_zero_iff.mp unreferenced sp (releasing.sps ▸ member)
    rw [refers_iff, releasing.mPointer]
    exact ⟨remains.1, pointer⟩
  case pending =>
    intro x member
    rcases List.mem_append.mp member with isTarget | isOwed
    · obtain ⟨sp, member, _, _, refers, _, isAlive'⟩ := releasing.target isAlive isTarget
      refine ⟨(others x ?_).mpr isAlive', sp, member, refers⟩
      rintro rfl
      exact notTarget isTarget
    · have pending := releasing.pending x (List.mem_cons_of_mem y isOwed)
      refine ⟨(others x ?_).mpr pending.1, pending.2⟩
      rintro rfl
      exact notOwed isOwed
  case unreleased =>
    intro x isAlive' zero
    have ne : x ≠ y := by
      rintro rfl
      exact isGone isAlive'
    rw [object_set_of_ne ne] at zero
    exact releasing.unreleased x ((others x ne).mp isAlive') zero
  case onlyKept =>
    intro x started isGone'
    by_cases isY : x = y
    · exact isY ▸ onlyKept
    · exact releasing.onlyKept x started fun isAlive' => isGone' ((others x isY).mpr isAlive')
  case first =>
    left
    rcases releasing.first with isGone' | ⟨_, only⟩
    · by_cases isY : old = y
      · exact isY ▸ isGone
      · exact fun isAlive' => isGone' ((others old isY).mp isAlive')
    · exact only y List.mem_cons_self ▸ isGone
  case before =>
    intro x isGone'
    have ne : x ≠ y := by
      rintro rfl
      exact isGone' (releasing.started isAlive)
    rw [object_set_of_ne ne]
    exact releasing.before x isGone'

/-- The counters of an object that is destroyed no longer matter. -/
theorem Releasing.set_gone (releasing : Releasing elsewhere wps start p old owed heap)
    (started : start.alive y) (isGone : ¬heap.alive y) {counted : CountedObject}
    (destroyed : counted.destroyed = true)
    (isStrong : counted.isStrong = (heap.object y).isStrong) :
    Releasing elsewhere wps start p old owed (heap.set y counted) := by
  have same : ∀ x, (heap.set y counted).alive x ↔ heap.alive x := by
    apply alive_set_iff
    rw [destroyed]
    exact ((Bool.not_eq_false _).mp isGone).symm
  have others : ∀ x, heap.alive x → (heap.set y counted).object x = heap.object x := by
    intro x isAlive
    apply object_set_of_ne
    rintro rfl
    exact isGone isAlive
  constructor
  case sps => exact releasing.sps
  case mPointer => exact releasing.mPointer
  case isStrong =>
    intro x
    rw [← releasing.isStrong x]
    by_cases isY : x = y
    · rw [isY, object_set_self, isStrong]
    · rw [object_set_of_ne isY]
  case strong =>
    intro x isAlive
    rw [same] at isAlive
    rw [others x isAlive, @otherReferences_congr heap (heap.set y counted) rfl rfl same]
    exact releasing.strong x isAlive
  case weak =>
    intro x isAlive
    rw [same] at isAlive
    rw [others x isAlive]
    exact releasing.weak x isAlive
  case targets =>
    intro sp member ne remains x pointer
    rw [exists_congr same] at remains
    exact (same x).mpr (releasing.targets sp member ne remains x pointer)
  case pending =>
    intro x member
    exact ⟨(same x).mpr (releasing.pending x member).1, (releasing.pending x member).2⟩
  case unreleased =>
    intro x isAlive zero
    rw [same] at isAlive
    rw [others x isAlive] at zero
    exact releasing.unreleased x isAlive zero
  case onlyKept =>
    intro x started isGone'
    exact releasing.onlyKept x started fun isAlive => isGone' ((same x).mpr isAlive)
  case first =>
    rcases releasing.first with isGone' | ⟨untouched, only⟩
    · exact .inl fun isAlive => isGone' ((same old).mp isAlive)
    · exact .inr ⟨fun x started => (same x).mpr (untouched x started), only⟩
  case before =>
    intro x isGone'
    have ne : x ≠ y := by
      rintro rfl
      exact isGone' started
    rw [object_set_of_ne ne]
    exact releasing.before x isGone'

/-! ### Runs of the destructors -/

section Fold

variable {call : ObjectHeap → Nat → Except Failure ObjectHeap} {fuel : Nat}
  (release : ∀ heap y owed, Releasing elsewhere wps start p old (y :: owed) heap →
    heap.sps.countP heap.exists < fuel →
      Outcome elsewhere wps start p old owed heap (call heap y))

include release

/-- References are released one after the other. -/
theorem fold_outcome {list : List Sp}
    (releasing : Releasing elsewhere wps start p old (list.filterMap start.mPointer ++ owed) heap)
    (bound : heap.sps.countP heap.exists < fuel) :
    Outcome elsewhere wps start p old owed heap
      (list.foldlM (destroySp call) heap) := by
  induction list generalizing heap with
  | nil => exact .inl ⟨heap, rfl, releasing, Released.refl wps p heap⟩
  | cons sp list ih =>
      cases pointer : start.mPointer sp with
      | none =>
          rw [List.filterMap_cons_none pointer] at releasing
          have skips : destroySp call heap sp = .ok heap := by
            rw [destroySp, releasing.mPointer, pointer]
            rfl
          rw [foldlM_cons_ok skips]
          exact ih releasing bound
      | some y =>
          rw [List.filterMap_cons_some pointer, List.cons_append] at releasing
          have calls : destroySp call heap sp = call heap y := by
            rw [destroySp, releasing.mPointer, pointer]
            rfl
          rcases release heap y _ releasing bound with ⟨next, calls', releasing', released⟩ | fails
          · rw [foldlM_cons_ok (calls.trans calls')]
            have less := released.countP_le (releasing'.sps.trans releasing.sps.symm)
            rcases ih releasing' (Nat.lt_of_le_of_lt less bound) with
              ⟨last, ends, releasing'', released'⟩ | fails
            · exact .inl ⟨last, ends, releasing'', released.trans released'⟩
            · exact .inr fails
          · rw [List.foldlM_cons, calls, fails.1]
            exact .inr ⟨rfl, fails.2⟩

/-- The members of an object are destroyed, with `p` as a member only if that was known. -/
theorem members_outcome (nodup : start.sps.Nodup) (member : p ∈ start.sps)
    (pointer : start.mPointer p = some old)
    (deleted : 0 < fuel → ∀ heap, ¬heap.alive old → call heap old = .error .deleted)
    (releasing : Releasing elsewhere wps start p old (heap.targetsOf p y ++ owed) heap)
    (started : start.alive y) (isGone : ¬heap.alive y)
    (bound : heap.members y ≠ [] → heap.sps.countP heap.exists < fuel) :
    (∃ heap', (heap.members y).reverse.foldlM (destroySp call) heap = .ok heap' ∧
        Releasing elsewhere wps start p old owed heap' ∧ Released wps p heap heap' ∧
        p.owner ≠ some y) ∨
      (heap.members y).reverse.foldlM (destroySp call) heap = .error .deleted ∧
        Lost elsewhere wps start p p := by
  have isMember : p ∈ heap.members y ↔ p.owner = some y := by
    rw [members, List.mem_filter, beq_iff_eq, releasing.sps]
    exact and_iff_right member
  by_cases owned : p.owner = some y
  · right
    obtain ⟨before, behind, split⟩ :=
      List.append_of_mem (List.mem_reverse.mpr (isMember.mpr owned))
    have once : (heap.members y).reverse.Nodup := by
      rw [List.nodup_reverse, members, releasing.sps]
      exact nodup.filter _
    have others : (heap.members y).reverse.filter (· != p) = before ++ behind := by
      rw [split, List.nodup_middle, List.nodup_cons] at once
      have keeps : (before ++ behind).filter (· != p) = before ++ behind := by
        rw [List.filter_eq_self]
        intro sp inside
        rw [bne_iff_ne]
        rintro rfl
        exact once.1 inside
      rw [split, List.filter_append, List.filter_cons_of_neg (by simp), ← List.filter_append, keeps]
    rw [targetsOf, others, releasing.mPointer, List.filterMap_append, List.append_assoc]
      at releasing
    have nonempty : heap.members y ≠ [] := List.ne_nil_of_mem (isMember.mpr owned)
    have lost : Lost elsewhere wps start p p :=
      ⟨y, owned, releasing.onlyKept y started isGone⟩
    rw [split, List.foldlM_append]
    rcases fold_outcome release releasing (bound nonempty) with
      ⟨heap', ends, releasing', released⟩ | fails
    · have oldGone : ¬heap.alive old := by
        rcases releasing.first with oldGone | ⟨untouched, _⟩
        · exact oldGone
        · exact absurd (untouched y started) isGone
      have again : destroySp call heap' p = .error .deleted := by
        rw [destroySp, releasing'.mPointer, pointer]
        exact deleted (Nat.zero_lt_of_lt (bound nonempty)) heap' (released.stays_gone oldGone)
      rw [ends]
      change (p :: behind).foldlM (destroySp call) heap' = _ ∧ _
      rw [List.foldlM_cons, again]
      exact ⟨rfl, lost⟩
    · rw [fails.1]
      exact ⟨rfl, lost⟩
  · have all : heap.targetsOf p y = (heap.members y).reverse.filterMap start.mPointer := by
      rw [targetsOf, releasing.mPointer, List.filter_eq_self.mpr]
      intro sp inside
      rw [bne_iff_ne]
      rintro rfl
      exact owned (isMember.mp (List.mem_reverse.mp inside))
    rw [all] at releasing
    by_cases empty : heap.members y = []
    · rw [empty] at releasing ⊢
      exact .inl ⟨heap, rfl, releasing, Released.refl wps p heap, owned⟩
    · rcases fold_outcome release releasing (bound empty) with
        ⟨heap', ends, releasing', released⟩ | fails
      · exact .inl ⟨heap', ends, releasing', released, owned⟩
      · exact .inr fails

end Fold

/-! ### The release -/

theorem set_set (heap : ObjectHeap) (x : Nat) (counted counted' : CountedObject) :
    (heap.set x counted).set x counted' = heap.set x counted' := by
  rw [set, set, set]
  simp only [Function.update_idem]

theorem decStrong_gone (fuel : Nat) (isGone : ¬heap.alive y) :
    decStrong (fuel + 1) heap y = .error .deleted := by
  rw [decStrong, access, if_pos ((Bool.not_eq_false _).mp isGone)]
  rfl

theorem access_ok (isAlive : heap.alive y) : heap.access y = .ok (heap.object y) := by
  rw [access, if_neg ((Bool.not_eq_true _).mpr isAlive)]

/-- The counters are lowered if there are other references. -/
theorem decStrong_lower (fuel : Nat) (isAlive : heap.alive y)
    (strong : 1 ≤ (heap.object y).mStrongReferenceCounter)
    (weak : 1 ≤ (heap.object y).mWeakReferenceCounter)
    (stays : (heap.object y).mStrongReferenceCounter = 1 → (heap.object y).isStrong = false)
    (weakStays : (heap.object y).mWeakReferenceCounter = 1 → (heap.object y).isStrong = true) :
    decStrong (fuel + 1) heap y = .ok (heap.set y { heap.object y with
      mStrongReferenceCounter := (heap.object y).mStrongReferenceCounter - 1
      mWeakReferenceCounter := (heap.object y).mWeakReferenceCounter - 1 }) := by
  have goesOn : ¬((heap.object y).mStrongReferenceCounter = 1 ∧
      (heap.object y).isStrong = true) := by
    rintro ⟨last, isStrong⟩
    rw [stays last] at isStrong
    cases isStrong
  rw [decStrong, access_ok isAlive]
  change (if _ then _ else _) = _
  rw [if_neg (by omega), if_neg goesOn]
  change decWeakReference _ _ _ = _
  rw [decWeakReference, object_set_self]
  simp only
  rw [if_neg (by omega), set_set]
  split
  · rfl
  · rename_i isLast
    rw [if_pos (weakStays (not_not.mp isLast))]

theorem decWeakReference_strong (call : ObjectHeap → Nat → Except Failure ObjectHeap)
    (weak : 1 ≤ (heap.object y).mWeakReferenceCounter)
    (isStrong : (heap.object y).isStrong = true) :
    decWeakReference call heap y = .ok (heap.set y { heap.object y with
      mWeakReferenceCounter := (heap.object y).mWeakReferenceCounter - 1 }) := by
  rw [decWeakReference]
  simp only
  rw [if_neg (by omega), if_pos isStrong, ite_self]

/-- The last strong reference to an object that lives as long as these. -/
theorem decStrong_strong (fuel : Nat) (isAlive : heap.alive y)
    (last : (heap.object y).mStrongReferenceCounter = 1)
    (isStrong : (heap.object y).isStrong = true) :
    decStrong (fuel + 1) heap y =
      ((heap.members y).reverse.foldlM (destroySp (decStrong fuel)) (heap.set y
        { heap.object y with mStrongReferenceCounter := 0, destroyed := true }) >>=
          fun heap' => decWeakReference (decStrong fuel) heap' y) := by
  rw [decStrong, access_ok isAlive]
  change (if _ then _ else _) = _
  rw [if_neg (by omega), if_pos ⟨last, isStrong⟩, last, delete, object_set_self, set_set]
  rfl

/-- The last reference to an object that lives as long as there are any. -/
theorem decStrong_weak (fuel : Nat) (isAlive : heap.alive y)
    (last : (heap.object y).mStrongReferenceCounter = 1)
    (lastWeak : (heap.object y).mWeakReferenceCounter = 1)
    (isWeak : (heap.object y).isStrong = false) :
    decStrong (fuel + 1) heap y =
      (heap.members y).reverse.foldlM (destroySp (decStrong fuel)) (heap.set y
        { heap.object y with
          mStrongReferenceCounter := 0, mWeakReferenceCounter := 0, destroyed := true }) := by
  have goesOn : ¬((heap.object y).mStrongReferenceCounter = 1 ∧
      (heap.object y).isStrong = true) := by
    rintro ⟨_, isStrong⟩
    rw [isWeak] at isStrong
    cases isStrong
  rw [decStrong, access_ok isAlive]
  change (if _ then _ else _) = _
  rw [if_neg (by omega), if_neg goesOn, last]
  change decWeakReference _ _ _ = _
  rw [decWeakReference, object_set_self]
  simp only
  rw [if_neg (by omega), set_set, if_neg (by omega), isWeak, lastWeak, delete, object_set_self,
    set_set]
  rfl

/-- Nothing but the counters of an object is changed. -/
theorem released_lower (isAlive : heap.alive y) (counted : CountedObject)
    (same : counted.destroyed = false) : Released wps p heap (heap.set y counted) := by
  have remains : ∀ x, (heap.set y counted).alive x ↔ heap.alive x :=
    alive_set_iff (same.trans isAlive.symm)
  constructor
  case gone =>
    intro x isGone
    apply object_set_of_ne
    rintro rfl
    exact isGone isAlive
  case finished => exact fun x isAlive' isGone => absurd ((remains x).mpr isAlive') isGone
  case owner => exact fun x _ isAlive' => (remains x).mpr isAlive'

/-- What is left of an object after its members have been destroyed. -/
theorem released_destroyed {heap' heap'' : ObjectHeap} {counted : CountedObject}
    (isAlive : heap.alive y) (isOwner : p.owner ≠ some y)
    (released : Released wps p (heap.set y counted) heap')
    (others : ∀ x, x ≠ y → heap''.object x = heap'.object x)
    (finished : (heap''.object y).mStrongReferenceCounter = 0 ∧
      (heap''.object y).mWeakReferenceCounter = wps y) : Released wps p heap heap'' := by
  have before : ∀ x, x ≠ y → ((heap.set y counted).alive x ↔ heap.alive x) := by
    intro x ne
    rw [alive, object_set_of_ne ne, alive]
  have after : ∀ x, x ≠ y → (heap''.alive x ↔ heap'.alive x) := by
    intro x ne
    rw [alive, others x ne, alive]
  constructor
  case gone =>
    intro x isGone
    have ne : x ≠ y := by
      rintro rfl
      exact isGone isAlive
    rw [others x ne, released.gone x fun isAlive' => isGone ((before x ne).mp isAlive'),
      object_set_of_ne ne]
  case finished =>
    intro x isAlive' isGone
    by_cases isY : x = y
    · exact isY ▸ finished
    · rw [others x isY]
      exact released.finished x ((before x isY).mpr isAlive') fun remains =>
        isGone ((after x isY).mpr remains)
  case owner =>
    intro x isOwner' isAlive'
    have ne : x ≠ y := by
      rintro rfl
      exact isOwner isOwner'
    exact (after x ne).mpr (released.owner x isOwner' ((before x ne).mpr isAlive'))

/-- The memory of the members is gone. -/
theorem countP_destroyed {counted : CountedObject} (isAlive : heap.alive y)
    (destroyed : counted.destroyed = true) (nonempty : heap.members y ≠ []) :
    (heap.set y counted).sps.countP (heap.set y counted).exists < heap.sps.countP heap.exists := by
  have fewer : heap.sps.countP (heap.set y counted).exists =
      (heap.sps.filter fun sp => sp.owner != some y).countP heap.exists := by
    rw [List.countP_filter]
    exact List.countP_congr fun sp _ => by rw [exists_destroyed destroyed]
  have some_ : 0 < (heap.sps.filter fun sp => !(sp.owner != some y)).countP heap.exists := by
    obtain ⟨sp, member⟩ := List.exists_mem_of_ne_nil _ nonempty
    rw [members, List.mem_filter, beq_iff_eq] at member
    rw [List.countP_pos_iff]
    refine ⟨sp, List.mem_filter.mpr ⟨member.1, ?_⟩, exists_iff.mpr fun x isOwner => ?_⟩
    · rw [member.2, bne_self_eq_false]
      rfl
    · cases member.2.symm.trans isOwner
      exact isAlive
  change heap.sps.countP (heap.set y counted).exists < _
  rw [fewer, List.countP_eq_countP_filter_add heap.sps heap.exists fun sp => sp.owner != some y]
  omega

theorem decStrong_outcome (nodup : start.sps.Nodup) (member : p ∈ start.sps)
    (pointer : start.mPointer p = some old) (fuel : Nat)
    (releasing : Releasing elsewhere wps start p old (y :: owed) heap)
    (bound : heap.sps.countP heap.exists < fuel) :
    Outcome elsewhere wps start p old owed heap (decStrong fuel heap y) := by
  induction fuel generalizing heap y owed with
  | zero => exact absurd bound (Nat.not_lt_zero _)
  | succ fuel ih =>
      have isAlive := (releasing.pending y List.mem_cons_self).1
      have strong := releasing.strong y isAlive
      rw [List.count_cons_self] at strong
      have weak := releasing.weak y isAlive
      have deleted : 0 < fuel → ∀ heap : ObjectHeap, ¬heap.alive old →
          decStrong fuel heap old = .error .deleted := by
        intro positive heap isGone
        obtain ⟨fuel, rfl⟩ := Nat.exists_eq_succ_of_ne_zero (Nat.ne_of_gt positive)
        exact decStrong_gone fuel isGone
      by_cases stays : (heap.object y).mStrongReferenceCounter = 1 → KeptByWps wps start y
      · left
        refine ⟨_, ?_, releasing.lower stays, released_lower isAlive _ isAlive⟩
        apply decStrong_lower fuel isAlive (by omega) (by omega)
        · exact fun last => (releasing.isStrong y).trans (stays last).1
        · intro lastWeak
          have kept := (stays (by omega)).2
          omega
      · rw [Classical.not_imp] at stays
        obtain ⟨last, noWps⟩ := stays
        have smaller (counted : CountedObject) (destroyed : counted.destroyed = true)
            (nonempty : heap.members y ≠ []) :
            (heap.set y counted).sps.countP (heap.set y counted).exists < fuel :=
          Nat.lt_of_lt_of_le (countP_destroyed isAlive destroyed nonempty)
            (Nat.le_of_lt_succ bound)
        cases isStrong : (heap.object y).isStrong with
        | true =>
            have destroyed := @Releasing.destroy _ _ _ _ _ _ _ _ releasing last noWps
              { heap.object y with mStrongReferenceCounter := 0, destroyed := true } rfl rfl
            rw [decStrong_strong fuel isAlive last isStrong]
            rcases members_outcome (fun heap y owed releasing => ih releasing) nodup member pointer
              deleted destroyed (releasing.started isAlive) (gone_set rfl) (smaller _ rfl) with
              ⟨heap', ends, releasing', released, isOwner⟩ | fails
            · left
              have stays := released.gone y (gone_set rfl)
              rw [object_set_self] at stays
              have isGone : ¬heap'.alive y := released.stays_gone (gone_set rfl)
              change (heap.members y).reverse.foldlM _ _ = _ at ends
              rw [ends]
              refine ⟨_, decWeakReference_strong _ (by rw [stays]; simp only; omega)
                (by rw [stays, isStrong]), ?_, ?_⟩
              · exact releasing'.set_gone (releasing.started isAlive) isGone (by rw [stays]) rfl
              · apply released_destroyed isAlive isOwner released
                · exact fun x ne => object_set_of_ne ne _
                · rw [object_set_self, stays]
                  exact ⟨rfl, by simp only; omega⟩
            · right
              change (heap.members y).reverse.foldlM _ _ = _ ∧ _ at fails
              rw [fails.1]
              exact ⟨rfl, fails.2⟩
        | false =>
            have noWp : wps y = 0 := by
              by_contra some_
              exact noWps ⟨(releasing.isStrong y).symm.trans isStrong, Nat.pos_of_ne_zero some_⟩
            have destroyed := @Releasing.destroy _ _ _ _ _ _ _ _ releasing last noWps
              { heap.object y with
                mStrongReferenceCounter := 0, mWeakReferenceCounter := 0, destroyed := true }
              rfl rfl
            rw [decStrong_weak fuel isAlive last (by omega) isStrong]
            rcases members_outcome (fun heap y owed releasing => ih releasing) nodup member pointer
              deleted destroyed (releasing.started isAlive) (gone_set rfl) (smaller _ rfl) with ⟨heap', ends, releasing', released, isOwner⟩ | fails
            · left
              have stays := released.gone y (gone_set rfl)
              rw [object_set_self] at stays
              refine ⟨heap', ends, releasing', ?_⟩
              apply released_destroyed isAlive isOwner released (fun _ _ => rfl)
              rw [stays, noWp]
              exact ⟨rfl, rfl⟩
            · exact .inr fails

/-- The release begins with the reference that `p` has. -/
theorem Counted.releasing (counted : start.Counted elsewhere wps) (member : p ∈ start.sps)
    (remains : start.exists p) (pointer : start.mPointer p = some old) :
    Releasing elsewhere wps start p old [old] start := by
  constructor
  case sps => rfl
  case mPointer => rfl
  case isStrong => exact fun _ => rfl
  case strong =>
    intro x isAlive
    have once : [old].count x = if start.refers x p then 1 else 0 := by
      rw [List.count_singleton]
      congr 1
      rw [eq_iff_iff, refers_iff, pointer, beq_iff_eq, Option.some.injEq]
      exact (and_iff_right remains).symm
    rw [counted.strong x isAlive, references_eq counted.nodup member, once]
    omega
  case weak => exact counted.weak
  case targets =>
    exact fun sp inside _ remains x pointer => counted.targets sp inside remains x pointer
  case pending =>
    intro x isOld
    obtain rfl := List.mem_singleton.mp isOld
    exact ⟨counted.targets p member remains x pointer, p, member,
      refers_iff.mpr ⟨remains, pointer⟩⟩
  case unreleased => exact fun _ _ zero => .inr zero
  case onlyKept => exact fun x isAlive isGone => absurd isAlive isGone
  case first => exact .inr ⟨fun _ isAlive => isAlive, fun x isOld => List.mem_singleton.mp isOld⟩
  case before => exact fun _ _ => rfl

/-- In the end, no object is there that only the reference has kept. -/
theorem Releasing.destroyed (releasing : Releasing elsewhere wps start p old [] heap)
    (counted : start.Counted elsewhere wps) {x : Nat}
    (onlyKept : OnlyKeptBy elsewhere wps start p x) : ¬heap.alive x := by
  induction onlyKept with
  | intro x nowhere noWps referred members _ owners =>
      intro isAlive
      have others : heap.otherReferences p x = 0 := by
        rw [otherReferences_eq_zero_iff]
        intro sp member refers
        rw [releasing.sps] at member
        rw [refers_iff, releasing.mPointer] at refers
        by_contra ne
        have started : start.refers x sp = true := refers_iff.mpr
          ⟨exists_iff.mpr fun z isOwner =>
            releasing.started (exists_iff.mp refers.1 z isOwner), refers.2⟩
        obtain ⟨owner, isOwner⟩ := Option.ne_none_iff_exists'.mp (members sp member started ne)
        exact owners sp member started ne owner isOwner (exists_iff.mp refers.1 owner isOwner)
      have zero := releasing.strong x isAlive
      rw [others, nowhere, List.count_nil] at zero
      have some_ : 0 < start.references x := by
        obtain ⟨sp, member, refers⟩ := referred
        exact List.countP_pos_iff.mpr ⟨sp, member, refers⟩
      rcases releasing.unreleased x isAlive zero with kept | before
      · exact noWps kept
      · have strong := counted.strong x (releasing.started isAlive)
        omega

/-- The objects that are left after the release. -/
theorem Releasing.alive_iff (releasing : Releasing elsewhere wps start p old [] heap)
    (counted : start.Counted elsewhere wps) (x : Nat) :
    heap.alive x ↔ start.alive x ∧ ¬OnlyKeptBy elsewhere wps start p x := by
  constructor
  · exact fun isAlive => ⟨releasing.started isAlive, fun onlyKept =>
      releasing.destroyed counted onlyKept isAlive⟩
  · rintro ⟨started, notOnly⟩
    by_contra isGone
    exact notOnly (releasing.onlyKept x started isGone)

/-- The objects that only the reference has kept are destroyed, unless the reference is in one of
these. -/
theorem decStrongReference_released (counted : start.Counted elsewhere wps)
    (member : p ∈ start.sps) (remains : start.exists p) (pointer : start.mPointer p = some old) :
    (¬Lost elsewhere wps start p p → ∃ heap, start.decStrongReference old = .ok heap ∧
        Releasing elsewhere wps start p old [] heap ∧ Released wps p start heap) ∧
      (Lost elsewhere wps start p p → start.decStrongReference old = .error .deleted) := by
  have bound : start.sps.countP start.exists < start.sps.length + 1 :=
    Nat.lt_succ_of_le List.countP_le_length
  rcases decStrong_outcome counted.nodup member pointer _
      (counted.releasing member remains pointer) bound with ⟨heap, ends, releasing, released⟩ | fails
  · refine ⟨fun _ => ⟨heap, ends, releasing, released⟩, fun ⟨x, isOwner, onlyKept⟩ => ?_⟩
    have isAlive := released.owner x isOwner (exists_iff.mp remains x isOwner)
    exact absurd isAlive (releasing.destroyed counted onlyKept)
  · exact ⟨fun notLost => absurd fails.2 notLost, fun _ => fails.1⟩

/-- Nothing is kept only by a null pointer. -/
theorem not_onlyKeptBy_null (pointer : start.mPointer p = none) {x : Nat}
    (onlyKept : OnlyKeptBy elsewhere wps start p x) : False := by
  induction onlyKept with
  | intro x nowhere noWps referred members _ owners =>
      obtain ⟨sp, member, refers⟩ := referred
      by_cases isP : sp = p
      · rw [isP, refers_iff, pointer] at refers
        cases refers.2
      · obtain ⟨owner, isOwner⟩ := Option.ne_none_iff_exists'.mp (members sp member refers isP)
        exact owners sp member refers isP owner isOwner

end Release

end ObjectHeap

end Mindroid
