import Mathlib.Data.List.Basic
import Mathlib.Logic.Function.Basic

/-!
# Directories

Objects are registered under names, and further objects are derived from them under other names.
An object that is withdrawn takes along all that was made from it, until it is registered again.
A directory can be kept in one list, where each name occurs once.
-/

set_option autoImplicit false

namespace Foundation

/-- What is registered and what is derived under a name, from which objects an object was made,
itself included, and which objects are withdrawn. -/
structure Directory (ι ο : Type) where
  registered : ι → Option ο
  derived : ι → Option ο
  sources : ο → List ο
  withdrawn : ο → Bool

namespace Directory

variable {ι ο : Type}

/-- Every object is made from nothing but itself, and none is anywhere. -/
def empty : Directory ι ο where
  registered := fun _ => none
  derived := fun _ => none
  sources := fun object => [object]
  withdrawn := fun _ => false

variable (dir : Directory ι ο)

/-- What is found under a name. -/
def entry (name : ι) : Option ο :=
  (dir.registered name).or (dir.derived name)

/-- The invariant of a directory in which what is derived under a name comes from what is
registered under the base of the name. -/
structure Sound (base : ι → ι) : Prop where
  exclusive : ∀ name, dir.registered name = none ∨ dir.derived name = none
  present : ∀ name object, dir.entry name = some object →
    ∀ source ∈ dir.sources object, dir.withdrawn source = false
  made : ∀ name object, dir.derived name = some object →
    ∃ source, dir.registered (base name) = some source ∧
      dir.sources object = object :: dir.sources source

theorem sound_empty (base : ι → ι) : (empty : Directory ι ο).Sound base where
  exclusive := fun _ => .inl rfl
  present := by simp [empty, entry]
  made := by simp [empty]

section Withdrawal

variable [DecidableEq ο]

/-- Whether an object stays when another one is withdrawn. -/
def stays (object other : ο) : Bool :=
  decide (object ∉ dir.sources other)

def withdraw (object : ο) : Directory ι ο :=
  { dir with
    registered := fun name => (dir.registered name).filter (dir.stays object)
    derived := fun name => (dir.derived name).filter (dir.stays object)
    withdrawn := Function.update dir.withdrawn object true }

variable {dir} {base : ι → ι}

theorem entry_withdraw (exclusive : ∀ name, dir.registered name = none ∨ dir.derived name = none)
    (object : ο) (name : ι) :
    (dir.withdraw object).entry name = (dir.entry name).filter (dir.stays object) := by
  cases exclusive name with
  | inl free => simp [entry, withdraw, free]
  | inr free => simp [entry, withdraw, free]

theorem Sound.withdraw (sound : dir.Sound base) (object : ο) :
    (dir.withdraw object).Sound base := by
  constructor
  · intro name
    exact (sound.exclusive name).imp (by simp +contextual [Directory.withdraw])
      (by simp +contextual [Directory.withdraw])
  · intro name found isFound source member
    rw [entry_withdraw sound.exclusive, Option.filter_eq_some_iff] at isFound
    have different : source ≠ object := by
      rintro rfl
      simp [stays] at isFound
      exact isFound.2 member
    simpa [Directory.withdraw, different] using sound.present name found isFound.1 source member
  · intro name found isDerived
    simp [Directory.withdraw, Option.filter_eq_some_iff] at isDerived
    obtain ⟨source, isSource, made⟩ := sound.made name found isDerived.1
    refine ⟨source, ?_, made⟩
    have kept : object ∉ dir.sources source := by
      have apart := isDerived.2
      simp [stays, made] at apart
      exact apart.2
    simp [Directory.withdraw, isSource, stays, kept]

end Withdrawal

section Additions

variable [DecidableEq ι] [DecidableEq ο]

/-- The first object that is registered under a free name is the one that is found there. -/
def register (name : ι) (object : ο) : Directory ι ο :=
  if (dir.entry name).isSome then
    dir
  else
    { dir with
      registered := Function.update dir.registered name (some object)
      withdrawn := Function.update dir.withdrawn object false }

def derive (name : ι) (source object : ο) : Directory ι ο :=
  { dir with
    derived := Function.update dir.derived name (some object)
    sources := Function.update dir.sources object (object :: dir.sources source) }

variable {dir} {base : ι → ι} {name : ι} {object : ο}

theorem entry_register (other : ι) : (dir.register name object).entry other =
    if dir.entry name = none ∧ other = name then some object else dir.entry other := by
  unfold register
  cases known : dir.entry name with
  | some found => simp
  | none =>
      by_cases same : other = name
      · simp [entry, same]
      · simp [entry, same]

theorem entry_derive (vacant : dir.entry name = none) (source : ο) (other : ι) :
    (dir.derive name source object).entry other =
      if other = name then some object else dir.entry other := by
  have free : dir.registered name = none := by
    simp [entry] at vacant
    exact vacant.1
  by_cases same : other = name
  · simp [entry, derive, same, free]
  · simp [entry, derive, same]

theorem Sound.register (sound : dir.Sound base)
    (unmade : ∀ source ∈ dir.sources object, source ≠ object → dir.withdrawn source = false) :
    (dir.register name object).Sound base := by
  cases known : dir.entry name with
  | some found =>
      have kept : dir.register name object = dir := by simp [Directory.register, known]
      rw [kept]
      exact sound
  | none =>
      have free : dir.registered name = none ∧ dir.derived name = none := by
        simpa [entry] using known
      have registers : dir.register name object =
          { dir with
            registered := Function.update dir.registered name (some object)
            withdrawn := Function.update dir.withdrawn object false } := by
        simp [Directory.register, known]
      constructor
      · intro other
        rw [registers]
        by_cases same : other = name
        · simp [same, free.2]
        · simpa [same] using sound.exclusive other
      · intro other found isFound source member
        rw [entry_register] at isFound
        rw [registers] at member ⊢
        by_cases isObject : source = object
        · simp [isObject]
        · simp [isObject]
          split at isFound
          · cases isFound
            exact unmade source member isObject
          · exact sound.present other found isFound source member
      · intro other found isDerived
        rw [registers] at isDerived ⊢
        obtain ⟨source, isSource, made⟩ := sound.made other found isDerived
        refine ⟨source, ?_, made⟩
        have different : base other ≠ name := by
          intro same
          simp [same, free.1] at isSource
        simpa [different] using isSource

/-- A new object is derived under a free name. -/
theorem Sound.derive (sound : dir.Sound base) {source : ο}
    (vacant : dir.entry name = none) (isSource : dir.registered (base name) = some source)
    (unused : ∀ other found, dir.entry other = some found → found ≠ object)
    (new : dir.withdrawn object = false) :
    (dir.derive name source object).Sound base := by
  have free : dir.registered name = none ∧ dir.derived name = none := by
    simpa [entry] using vacant
  have sourceEntry : dir.entry (base name) = some source := by simp [entry, isSource]
  have different : source ≠ object := unused _ _ sourceEntry
  constructor
  · intro other
    by_cases same : other = name
    · simp [Directory.derive, same, free.1]
    · simpa [Directory.derive, same] using sound.exclusive other
  · intro other found isFound
    rw [entry_derive vacant] at isFound
    split at isFound
    · cases isFound
      intro origin member
      simp [Directory.derive] at member
      cases member with
      | inl isObject => simpa [Directory.derive, isObject] using new
      | inr inherited => exact sound.present _ _ sourceEntry origin inherited
    · have old : found ≠ object := unused _ _ isFound
      intro origin member
      simp [Directory.derive, old] at member
      exact sound.present _ _ isFound origin member
  · intro other found isDerived
    by_cases same : other = name
    · refine ⟨source, ?_, ?_⟩
      · simpa [Directory.derive, same] using isSource
      · simp [Directory.derive, same] at isDerived
        simp [Directory.derive, ← isDerived, different]
    · simp [Directory.derive, same] at isDerived
      obtain ⟨origin, isOrigin, made⟩ := sound.made other found isDerived
      have foundOld : found ≠ object := by
        apply unused other
        simpa [entry, (sound.exclusive other).resolve_right (by simp [isDerived])] using isDerived
      have originOld : origin ≠ object := unused (base other) _ (by simp [entry, isOrigin])
      refine ⟨origin, isOrigin, ?_⟩
      simpa [Directory.derive, foundOld, originOld] using made

end Additions

end Directory

/-! ## A list with a name once -/

section Listed

variable {ι ο : Type} [BEq ι] [LawfulBEq ι] {entries : List (ι × ο)} {name : ι}

theorem mem_of_lookup {object : ο} (found : entries.lookup name = some object) :
    (name, object) ∈ entries := by
  obtain ⟨before, after, rfl, _⟩ := List.lookup_eq_some_iff.mp found
  simp

theorem lookup_eq_none_iff_not_mem : entries.lookup name = none ↔ name ∉ entries.map Prod.fst := by
  rw [List.lookup_eq_none_iff]
  constructor
  · intro absent member
    obtain ⟨entry, inside, same⟩ := List.mem_map.mp member
    have different := absent entry inside
    simp [same] at different
  · intro absent entry member
    have other : name ≠ entry.1 := by
      rintro rfl
      exact absent (List.mem_map_of_mem member)
    simpa using other

/-- A name gets an entry at the front. -/
theorem lookup_front [DecidableEq ι] (other : ι) (object : ο) :
    List.lookup other ((name, object) :: entries) =
      if other = name then some object else entries.lookup other := by
  by_cases same : other = name
  · simp [same]
  · have different : (other == name) = false := by simpa using same
    simp [List.lookup_cons, different, same]

/-- What is found after the removal of objects is what was found, if it stays. -/
theorem lookup_filter (once : (entries.map Prod.fst).Nodup) (stays : ο → Bool) (name : ι) :
    (entries.filter fun entry => stays entry.2).lookup name =
      (entries.lookup name).filter stays := by
  induction entries with
  | nil => rfl
  | cons entry entries ih =>
      obtain ⟨first, object⟩ := entry
      rw [List.map_cons, List.nodup_cons] at once
      have later := ih once.2
      by_cases same : name = first
      · subst same
        rw [lookup_eq_none_iff_not_mem.mpr once.1] at later
        cases kept : stays object with
        | true => simp [kept, Option.filter]
        | false =>
            rw [List.filter_cons_of_neg (by simp [kept]), later]
            simp [kept, Option.filter]
      · have other : (name == first) = false := by simpa using same
        cases kept : stays object with
        | true => simpa [kept, List.lookup_cons, other] using later
        | false => simpa [kept, List.lookup_cons, other] using later

end Listed

end Foundation
