import Mathlib.Data.Finmap

/-!
# Lists of entries under a comparison of keys

A table whose order does not matter is a list of entries no two of which have the same key.  Which
keys are the same is a comparison; a key stands for what it has in common with the same keys.  Such
a list is the finite map from what its keys stand for to its values.
-/

set_option autoImplicit false

namespace Foundation

namespace KeyedList

variable {α ν γ : Type} (same : α → α → Bool)

/-- The value of a key. -/
def find (key : α) : List (α × ν) → Option ν
  | [] => none
  | entry :: rest => if same entry.1 key then some entry.2 else find key rest

/-- Overwrite the value of a key, or add an entry.  The key of an entry stays. -/
def assign (key : α) (value : ν) : List (α × ν) → List (α × ν)
  | [] => [(key, value)]
  | entry :: rest =>
      if same entry.1 key then (entry.1, value) :: rest else entry :: assign key value rest

def erase (key : α) : List (α × ν) → List (α × ν)
  | [] => []
  | entry :: rest => if same entry.1 key then rest else entry :: erase key rest

/-- No entry has the key of a later one. -/
def Apart (entries : List (α × ν)) : Prop :=
  entries.Pairwise fun entry later => same entry.1 later.1 = false

/-- The comparison finds out what keys stand for. -/
def Stands (stands : α → γ) : Prop :=
  ∀ key other, same key other = true ↔ stands key = stands other

variable {same} {stands : α → γ} {entries : List (α × ν)} {key : α} {value : ν}

/-- The entries under what their keys stand for. -/
def sigmas (stands : α → γ) (entries : List (α × ν)) : List (Sigma fun _ : γ => ν) :=
  entries.map fun entry => ⟨stands entry.1, entry.2⟩

theorem keys_sigmas (stands : α → γ) (entries : List (α × ν)) :
    (sigmas stands entries).keys = entries.map fun entry => stands entry.1 := by
  rw [sigmas, List.keys, List.map_map]
  rfl

theorem Apart.nodupKeys (stands_same : Stands same stands) (apart : Apart same entries) :
    (sigmas stands entries).NodupKeys := by
  rw [List.NodupKeys, keys_sigmas, List.Nodup, List.pairwise_map]
  refine apart.imp fun {entry later} different equal => ?_
  rw [(stands_same entry.1 later.1).mpr equal] at different
  cases different

/-- The finite map of a list of entries. -/
def finite (stands_same : Stands same stands) (entries : List (α × ν))
    (apart : Apart same entries) : Finmap fun _ : γ => ν :=
  AList.toFinmap ⟨sigmas stands entries, apart.nodupKeys stands_same⟩

theorem find_map {ν' : Type} (convert : ν → ν') (key : α) (entries : List (α × ν)) :
    find same key (entries.map fun entry => (entry.1, convert entry.2)) =
      (find same key entries).map convert := by
  induction entries with
  | nil => rfl
  | cons entry rest ih =>
      rw [List.map_cons, find, find]
      split
      · rfl
      · exact ih

/-- An entry of a list is found by its key. -/
theorem find_of_mem (stands_same : Stands same stands) (apart : Apart same entries)
    {entry : α × ν} (member : entry ∈ entries) : find same entry.1 entries = some entry.2 := by
  induction entries with
  | nil => exact absurd member List.not_mem_nil
  | cons first rest ih =>
      have parts := List.pairwise_cons.mp apart
      rw [find]
      cases List.mem_cons.mp member with
      | inl isFirst => rw [isFirst, if_pos ((stands_same first.1 first.1).mpr rfl)]
      | inr inRest =>
          rw [parts.1 entry inRest, if_neg Bool.false_ne_true]
          exact ih parts.2 inRest

theorem mem_of_find (found : find same key entries = some value) :
    ∃ entry ∈ entries, entry.2 = value := by
  induction entries with
  | nil => cases found
  | cons first rest ih =>
      rw [find] at found
      split at found
      · exact ⟨first, List.mem_cons_self, Option.some.inj found⟩
      · rcases ih found with ⟨entry, inRest, isValue⟩
        exact ⟨entry, List.mem_cons_of_mem _ inRest, isValue⟩

theorem find_eq_none (absent : ∀ entry ∈ entries, same entry.1 key = false) :
    find same key entries = none := by
  induction entries with
  | nil => rfl
  | cons first rest ih =>
      rw [find, absent first List.mem_cons_self, if_neg Bool.false_ne_true]
      exact ih fun entry member => absent entry (List.mem_cons_of_mem _ member)

/-- What is found among the entries whose values are kept. -/
theorem find_filter (stands_same : Stands same stands) (apart : Apart same entries)
    (keeps : ν → Bool) (key : α) :
    find same key (entries.filter fun entry => keeps entry.2) =
      (find same key entries).filter keeps := by
  induction entries with
  | nil => rfl
  | cons entry rest ih =>
      have parts := List.pairwise_cons.mp apart
      have later := ih parts.2
      rw [List.filter_cons]
      cases isKept : keeps entry.2 with
      | true =>
          rw [if_pos rfl, find, find]
          split
          · rw [Option.filter_some, if_pos isKept]
          · exact later
      | false =>
          rw [if_neg Bool.false_ne_true, later, find]
          split
          case isTrue isKey =>
            -- The entry that is found is not kept, and no other one has its key.
            have absent : find same key rest = none := by
              apply find_eq_none
              intro other member
              rw [Bool.eq_false_iff, ne_eq, stands_same, ← (stands_same entry.1 key).mp isKey,
                ← stands_same]
              intro equal
              have different := parts.1 other member
              rw [(stands_same entry.1 other.1).mpr ((stands_same other.1 entry.1).mp equal).symm]
                at different
              cases different
            rw [absent, Option.filter_some, isKept]
            rfl
          case isFalse => rfl

/-- What is in a list after an assignment. -/
theorem mem_assign {entry : α × ν} (member : entry ∈ assign same key value entries) :
    (∃ before ∈ entries, entry.1 = before.1) ∨ entry = (key, value) := by
  induction entries with
  | nil => exact .inr (List.mem_singleton.mp member)
  | cons first rest ih =>
      rw [assign] at member
      split at member
      · cases List.mem_cons.mp member with
        | inl isFirst => exact .inl ⟨first, List.mem_cons_self, by rw [isFirst]⟩
        | inr inRest => exact .inl ⟨entry, List.mem_cons_of_mem _ inRest, rfl⟩
      · cases List.mem_cons.mp member with
        | inl isFirst => exact .inl ⟨first, List.mem_cons_self, by rw [isFirst]⟩
        | inr inRest =>
            cases ih inRest with
            | inl before =>
                rcases before with ⟨other, inside, same⟩
                exact .inl ⟨other, List.mem_cons_of_mem _ inside, same⟩
            | inr isNew => exact .inr isNew

theorem Apart.assign (apart : Apart same entries) (key : α) (value : ν) :
    Apart same (assign same key value entries) := by
  induction entries with
  | nil => exact List.pairwise_singleton _ _
  | cons first rest ih =>
      have parts := List.pairwise_cons.mp apart
      rw [KeyedList.assign]
      split
      case isTrue => exact List.pairwise_cons.mpr ⟨parts.1, parts.2⟩
      case isFalse different =>
        refine List.pairwise_cons.mpr ⟨fun entry member => ?_, ih parts.2⟩
        cases mem_assign member with
        | inl before =>
            rcases before with ⟨other, inside, isKey⟩
            rw [isKey]
            exact parts.1 other inside
        | inr isNew =>
            rw [isNew]
            exact Bool.eq_false_iff.mpr different

theorem erase_sublist (key : α) (entries : List (α × ν)) :
    (erase same key entries).Sublist entries := by
  induction entries with
  | nil => exact List.Sublist.refl []
  | cons entry rest ih =>
      rw [erase]
      split
      · exact List.sublist_cons_self entry rest
      · exact ih.cons_cons entry

theorem Apart.erase (apart : Apart same entries) (key : α) :
    Apart same (erase same key entries) :=
  List.Pairwise.sublist (erase_sublist key entries) apart

section Lookup

variable [DecidableEq γ]

theorem dlookup_cons (image key : γ) (value : ν) (rest : List (Sigma fun _ : γ => ν)) :
    List.dlookup image (⟨key, value⟩ :: rest) =
      if image = key then some value else rest.dlookup image := by
  split
  case isTrue isKey =>
    subst isKey
    exact List.dlookup_cons_eq rest image value
  case isFalse different => exact List.dlookup_cons_ne rest ⟨key, value⟩ different

theorem dlookup_sigmas (stands_same : Stands same stands) (key : α) (entries : List (α × ν)) :
    (sigmas stands entries).dlookup (stands key) = find same key entries := by
  induction entries with
  | nil => rfl
  | cons entry rest ih =>
      rw [find, sigmas, List.map_cons, dlookup_cons]
      split
      case isTrue isKey => rw [if_pos ((stands_same entry.1 key).mpr isKey.symm)]
      case isFalse different =>
        rw [if_neg fun found => different ((stands_same entry.1 key).mp found).symm]
        exact ih

theorem lookup_finite (stands_same : Stands same stands) (apart : Apart same entries) (key : α) :
    (finite stands_same entries apart).lookup (stands key) = find same key entries := by
  rw [finite, Finmap.lookup_toFinmap]
  exact dlookup_sigmas stands_same key entries

theorem dlookup_assign (stands_same : Stands same stands) (key : α) (value : ν)
    (entries : List (α × ν)) (image : γ) :
    (sigmas stands (assign same key value entries)).dlookup image =
      if image = stands key then some value else (sigmas stands entries).dlookup image := by
  induction entries with
  | nil =>
      rw [assign, sigmas, List.map_cons, dlookup_cons]
      rfl
  | cons entry rest ih =>
      rw [assign]
      split
      case isTrue found =>
        rw [sigmas, sigmas, List.map_cons, List.map_cons, dlookup_cons, dlookup_cons,
          (stands_same entry.1 key).mp found]
        split <;> rfl
      case isFalse different =>
        have apart : stands entry.1 ≠ stands key := fun equal =>
          different ((stands_same entry.1 key).mpr equal)
        rw [sigmas, sigmas, List.map_cons, List.map_cons, dlookup_cons, dlookup_cons]
        by_cases isEntry : image = stands entry.1
        · rw [if_pos isEntry, if_pos isEntry, if_neg (isEntry.trans_ne apart)]
        · rw [if_neg isEntry, if_neg isEntry]
          exact ih

/-- Overwriting is insertion into the finite map. -/
theorem finite_assign (stands_same : Stands same stands) (apart : Apart same entries) (key : α)
    (value : ν) :
    finite stands_same (assign same key value entries) (apart.assign key value) =
      (finite stands_same entries apart).insert (stands key) value := by
  apply Finmap.ext_lookup
  intro image
  rw [finite, Finmap.lookup_toFinmap]
  refine (dlookup_assign stands_same key value entries image).trans ?_
  split
  case isTrue isKey =>
    rw [isKey, Finmap.lookup_insert]
  case isFalse different =>
    rw [Finmap.lookup_insert_of_ne _ different]
    rfl

/-- Erasing is erasing in the finite map. -/
theorem finite_erase (stands_same : Stands same stands) (apart : Apart same entries) (key : α) :
    finite stands_same (erase same key entries) (apart.erase key) =
      (finite stands_same entries apart).erase (stands key) := by
  have erased : sigmas stands (erase same key entries) =
      (sigmas stands entries).kerase (stands key) := by
    clear apart
    induction entries with
    | nil => rfl
    | cons entry rest ih =>
        rw [erase]
        split
        case isTrue found =>
          rw [sigmas, sigmas, List.map_cons]
          exact (List.kerase_cons_eq ((stands_same entry.1 key).mp found).symm).symm
        case isFalse different =>
          have apart : stands key ≠ stands entry.1 := fun equal =>
            different ((stands_same entry.1 key).mpr equal.symm)
          rw [sigmas, sigmas, List.map_cons, List.map_cons]
          refine Eq.trans ?_ (List.kerase_cons_ne apart).symm
          exact congrArg (_ :: ·) ih
  rw [finite, finite, Finmap.erase_toFinmap]
  apply congrArg AList.toFinmap
  apply AList.ext
  exact erased

end Lookup

end KeyedList

end Foundation
